import MacosAuth.Helper.Waiting

/-!
# Verdicts on authentication requests

The PAM module turns the exit code of the helper into one of three results: success,
fall back to another method, or refusal. This module says exactly which runs of
`run_request` succeed, and that a run falls back only if the agent could not be reached,
time ran out, or the agent itself answered so.
-/

namespace MacosAuth
namespace Helper

open Codec
open Protocol (utf8 ProtocolError AuthRequestBody AuthResponseBody SignedAuthRequest
  SignedAuthResponse Decision)
open Effect Effect.Program

/-! ## Judging a response -/

theorem ends_unixTimeMs_ok
    {trace : List HelperEvent}
    {now : UInt64} :
    Ends unixTimeMs trace (.ok now) ↔ trace = [⟨.wallClock, some now⟩] := by
  unfold unixTimeMs
  rw [ends_perform_bind]
  constructor
  · rintro ⟨reading, rest, rfl, ended⟩
    cases reading with
    | none => exact absurd ((ends_fail _ _ _).mp ended).2 (by simp)
    | some read =>
        obtain ⟨rfl, equal⟩ := (ends_pure _ _ _).mp ended
        rw [Except.ok.inj equal]
  · rintro rfl
    exact ⟨some now, [], rfl, (ends_pure _ _ _).mpr ⟨rfl, rfl⟩⟩

theorem ends_checkDeadline
    {deadline : Nat}
    {trace : List HelperEvent}
    {result : Except TransportError Unit} :
    Ends (checkDeadline deadline) trace result ↔
      ∃ now, trace = [⟨.instant, now⟩] ∧
        result = if deadline ≤ now then .error .timeout else .ok () := by
  unfold checkDeadline
  rw [ends_perform_bind]
  constructor
  · rintro ⟨now, rest, rfl, ended⟩
    split at ended
    · rename_i late
      obtain ⟨rfl, rfl⟩ := (ends_fail _ _ _).mp ended
      exact ⟨now, rfl, (if_pos late).symm⟩
    · rename_i early
      obtain ⟨rfl, rfl⟩ := (ends_pure _ _ _).mp ended
      exact ⟨now, rfl, (if_neg early).symm⟩
  · rintro ⟨now, rfl, rfl⟩
    refine ⟨now, [], rfl, ?_⟩
    split <;> simp

/-- The signature of the response verifies under the key. -/
def Verifies (crates : Crates) (publicKey : Bytes) (response : SignedAuthResponse)
    (trace : List HelperEvent) : Prop :=
  response.body.Encodable ∧ publicKey.length = 32 ∧ crates.isVerifyingKey publicKey = true ∧
    response.signature.length = 64 ∧
    trace = [⟨.verify publicKey response.body.encoding response.signature, true⟩]

theorem ends_verifyResponse_ok
    {crates : Crates}
    {response : SignedAuthResponse}
    {publicKey : Bytes}
    {trace : List HelperEvent}
    {result : Unit} :
    Ends (verifyResponse crates response publicKey) trace (.ok result) ↔
      Verifies crates publicKey response trace := by
  simp only [verifyResponse, ends_bind_ok, ends_done, Verifies]
  constructor
  · rintro ⟨_, _, bytes, rfl, ⟨rfl, encoded⟩, ended⟩
    obtain ⟨encodable, rfl⟩ :=
      AuthResponseBody.canonicalBytes_eq_ok_iff.mp encoded.symm
    unfold verifyEd25519 at ended
    split at ended
    · exact absurd ((ends_fail _ _ _).mp ended).2 (by simp)
    · rename_i validKey
      rw [not_or, not_not, Bool.not_eq_false] at validKey
      split at ended
      · exact absurd ((ends_fail _ _ _).mp ended).2 (by simp)
      · rename_i validLength
        rw [ends_perform_bind] at ended
        obtain ⟨valid, rest, rfl, ended⟩ := ended
        cases valid with
        | false => exact absurd ((ends_fail _ _ _).mp ended).2 (by simp)
        | true =>
            obtain ⟨rfl, _⟩ := (ends_pure _ _ _).mp ended
            exact ⟨encodable, validKey.1, validKey.2, not_not.mp validLength, rfl⟩
  · rintro ⟨encodable, length_eq, validKey, signatureLength, rfl⟩
    refine ⟨[], _, _, rfl,
      ⟨rfl, (AuthResponseBody.canonicalBytes_eq_ok_iff.mpr ⟨encodable, rfl⟩).symm⟩, ?_⟩
    rw [verifyEd25519, if_neg (by simp [length_eq, validKey]),
      if_neg (by simp [signatureLength]), ends_perform_bind]
    exact ⟨true, [], rfl, (ends_pure _ _ _).mpr ⟨rfl, rfl⟩⟩

theorem ends_verifyForRequest_ok
    {crates : Crates}
    {response : SignedAuthResponse}
    {request : AuthRequestBody}
    {publicKey : Bytes}
    {trace : List HelperEvent}
    {result : Unit} :
    Ends (verifyForRequest crates response request publicKey) trace (.ok result) ↔
      Verifies crates publicKey response trace ∧
        response.body.verifyBinding crates.digest request = .ok () := by
  simp only [verifyForRequest, ends_bind_ok, ends_verifyResponse_ok, ends_done]
  constructor
  · rintro ⟨first, _, _, rfl, verified, rfl, bound⟩
    exact ⟨by simpa using verified, bound.symm⟩
  · rintro ⟨verified, bound⟩
    exact ⟨trace, [], (), by simp, verified, rfl, bound.symm⟩

/-- The request lies within its validity window at this reading of the wall clock. -/
def Prepared.FreshAt (prepared : Prepared) (now : UInt64) : Prop :=
  prepared.request.body.verifyFreshness now prepared.allowedFutureSkewMs = .ok ()

/-- The replay cache, if there is one, has not seen the response before. -/
def Recorded
    (digest : Bytes -> Bytes)
    (rounds : Nat)
    (response : SignedAuthResponse)
    (trace : List HelperEvent) : Option File -> Prop
  | none => trace = []
  | some replayCache => Ends (recordReplayMarker digest rounds replayCache response) trace (.ok ())

/-- Every check on a response passes: its signature and its binding to the request, the
deadline and both validity windows, the replay cache, and once more the deadline and the
window of the request. -/
def Accepted
    (crates : Crates)
    (rounds : Nat)
    (prepared : Prepared)
    (response : SignedAuthResponse)
    (trace : List HelperEvent) : Prop :=
  ∃ verifying wall instant recording lastInstant lastWall,
    trace = verifying ++ ⟨.wallClock, some wall⟩ :: ⟨.instant, instant⟩ ::
      (recording ++ [⟨.instant, lastInstant⟩, ⟨.wallClock, some lastWall⟩]) ∧
    Verifies crates prepared.agentPubkey response verifying ∧
    response.body.verifyBinding crates.digest prepared.request.body = .ok () ∧
    instant < prepared.deadline ∧
    prepared.FreshAt wall ∧
    response.body.verifyFreshness wall prepared.allowedFutureSkewMs = .ok () ∧
    Recorded crates.digest rounds response recording prepared.replayCache ∧
    lastInstant < prepared.deadline ∧
    prepared.FreshAt lastWall

section Judging

variable {crates : Crates} {rounds : Nat} {prepared : Prepared}
variable {response : SignedAuthResponse} {trace : List HelperEvent}

/-- The deadline has passed, or the request was read to be outside of its window. -/
def OutOfTime (prepared : Prepared) (past : List HelperEvent) : Prop :=
  Expired prepared.deadline past ∨
    ∃ now, (⟨.wallClock, some now⟩ : HelperEvent) ∈ past ∧ ¬prepared.FreshAt now

theorem OutOfTime.mono
    {first second : List HelperEvent}
    (outOfTime : OutOfTime prepared first)
    (included : first ⊆ second) :
    OutOfTime prepared second := by
  rcases outOfTime with ⟨now, member, late⟩ | ⟨now, member, stale⟩
  · exact .inl ⟨now, included member, late⟩
  · exact .inr ⟨now, included member, stale⟩

theorem ends_unixTimeMs_error
    {error : HelperError}
    (ended : Ends unixTimeMs trace (.error error)) :
    error = .clock := by
  unfold unixTimeMs at ended
  rw [ends_perform_bind] at ended
  obtain ⟨reading, rest, rfl, ended⟩ := ended
  cases reading with
  | none => exact Except.error.inj ((ends_fail _ _ _).mp ended).2
  | some now => exact absurd ((ends_pure _ _ _).mp ended).2 (by simp)

/-- The deadline is met when the clock was read before it. -/
theorem ends_checkDeadline_reading
    {deadline : Nat}
    {result : Except TransportError Unit}
    (ended : Ends (checkDeadline deadline) trace result) :
    ∃ now, trace = [⟨.instant, now⟩] ∧ (result = .ok () ↔ now < deadline) := by
  obtain ⟨now, rfl, rfl⟩ := ends_checkDeadline.mp ended
  refine ⟨now, rfl, ?_⟩
  split
  · rename_i late
    simpa using late
  · rename_i early
    simpa using early

/-- Screening reads both clocks. It passes before the deadline and within both windows,
unless the replay cache objects. -/
theorem ends_screenResponse_ok
    {result : Unit} :
    Ends (screenResponse crates.digest rounds prepared.deadline prepared.request
      prepared.allowedFutureSkewMs prepared.replayCache response) trace (.ok result) ↔
      ∃ wall instant recording,
        trace = ⟨.wallClock, some wall⟩ :: ⟨.instant, instant⟩ :: recording ∧
        instant < prepared.deadline ∧
        prepared.FreshAt wall ∧
        response.body.verifyFreshness wall prepared.allowedFutureSkewMs = .ok () ∧
        Recorded crates.digest rounds response recording prepared.replayCache := by
  simp only [screenResponse, ends_bind_ok, ends_mapError_ok, ends_unixTimeMs_ok]
  constructor
  · rintro ⟨_, _, wall, rfl, rfl, first, recording, inTime, rfl, checked, ended⟩
    obtain ⟨_, checked, equal⟩ := (ends_attempt _ _ _).mp checked
    obtain rfl := Except.ok.inj equal
    obtain ⟨instant, rfl, early⟩ := ends_checkDeadline_reading checked
    split at ended
    · rename_i timely
      split at ended
      · rename_i fresh
        refine ⟨wall, instant, recording, rfl, early.mp timely.1, timely.2, fresh, ?_⟩
        cases cache : prepared.replayCache with
        | none =>
            rw [cache] at ended
            exact ((ends_pure _ _ _).mp ended).1
        | some replayCache =>
            rw [cache] at ended
            dsimp only at ended
            rw [ends_attempt_bind] at ended
            obtain ⟨_, _, recorded, rfl, ended, continued⟩ := ended
            cases recorded with
            | ok done =>
                obtain ⟨rfl, _⟩ := (ends_pure _ _ _).mp continued
                simpa [Recorded] using ended
            | error error => exact absurd ((ends_fail _ _ _).mp continued).2 (by simp)
      · exact absurd ((ends_fail _ _ _).mp ended).2 (by simp)
    · exact absurd ((ends_fail _ _ _).mp ended).2 (by simp)
  · rintro ⟨wall, instant, recording, rfl, early, fresh, responseFresh, recorded⟩
    refine ⟨_, _, wall, List.singleton_append.symm, rfl, [⟨.instant, instant⟩], recording, .ok (),
      rfl, ?_, ?_⟩
    · refine (ends_attempt _ _ _).mpr ⟨.ok (), ends_checkDeadline.mpr ⟨instant, rfl, ?_⟩, rfl⟩
      rw [if_neg (Nat.not_le.mpr early)]
    · rw [if_pos ⟨rfl, fresh⟩, if_pos responseFresh]
      cases cache : prepared.replayCache with
      | none =>
          rw [cache] at recorded
          exact (ends_pure _ _ _).mpr ⟨recorded, rfl⟩
      | some replayCache =>
          rw [cache] at recorded
          dsimp only
          rw [ends_attempt_bind]
          exact ⟨recording, [], .ok (), by simp, recorded, (ends_pure _ _ _).mpr ⟨rfl, rfl⟩⟩

/-- A response that is screened out is taken for tampering, unless time ran out or the
clock failed. -/
theorem ends_screenResponse_error
    {stop : Stop}
    (ended : Ends (screenResponse crates.digest rounds prepared.deadline prepared.request
      prepared.allowedFutureSkewMs prepared.replayCache response) trace (.error stop)) :
    stop = .exit exitTamper ∨ stop = .failed .clock ∨
      (stop = .exit exitUnavailable ∧ OutOfTime prepared trace) := by
  unfold screenResponse at ended
  rw [ends_bind] at ended
  rcases ended with ⟨_, _, wall, rfl, read, ended⟩ | ⟨_, failed, equal⟩
  · rw [ends_mapError_ok, ends_unixTimeMs_ok] at read
    subst read
    rw [ends_attempt_bind] at ended
    obtain ⟨_, recording, inTime, rfl, checked, ended⟩ := ended
    obtain ⟨instant, rfl, early⟩ := ends_checkDeadline_reading checked
    split at ended
    · split at ended
      · cases cache : prepared.replayCache with
        | none =>
            rw [cache] at ended
            exact absurd ((ends_pure _ _ _).mp ended).2 (by simp)
        | some replayCache =>
            rw [cache] at ended
            dsimp only at ended
            rw [ends_attempt_bind] at ended
            obtain ⟨_, _, recorded, rfl, _, continued⟩ := ended
            cases recorded with
            | ok done => exact absurd ((ends_pure _ _ _).mp continued).2 (by simp)
            | error error =>
                exact .inl (Except.error.inj ((ends_fail _ _ _).mp continued).2)
      · exact .inl (Except.error.inj ((ends_fail _ _ _).mp ended).2)
    · rename_i untimely
      refine .inr (.inr ⟨Except.error.inj ((ends_fail _ _ _).mp ended).2, ?_⟩)
      rw [not_and_or, early, Nat.not_lt] at untimely
      rcases untimely with late | stale
      · exact .inl ⟨instant, by simp, late⟩
      · exact .inr ⟨wall, by simp, stale⟩
  · obtain ⟨cause, read, rfl⟩ := ends_mapError_error.mp failed
    refine .inr (.inl ?_)
    rw [Except.error.inj equal, ends_unixTimeMs_error read]

theorem ends_checkStillFresh_ok
    {result : Unit} :
    Ends (checkStillFresh prepared) trace (.ok result) ↔
      ∃ instant wall, trace = [⟨.instant, instant⟩, ⟨.wallClock, some wall⟩] ∧
        instant < prepared.deadline ∧ prepared.FreshAt wall := by
  rw [checkStillFresh, ends_attempt_bind]
  constructor
  · rintro ⟨_, _, inTime, rfl, checked, ended⟩
    obtain ⟨instant, rfl, early⟩ := ends_checkDeadline_reading checked
    split at ended
    · rename_i timely
      simp only [ends_bind_ok, ends_mapError_ok, ends_unixTimeMs_ok] at ended
      obtain ⟨_, rest, wall, rfl, rfl, ended⟩ := ended
      split at ended
      · rename_i fresh
        obtain ⟨rfl, _⟩ := (ends_pure _ _ _).mp ended
        exact ⟨instant, wall, rfl, early.mp timely, fresh⟩
      · exact absurd ((ends_fail _ _ _).mp ended).2 (by simp)
    · exact absurd ((ends_fail _ _ _).mp ended).2 (by simp)
  · rintro ⟨instant, wall, rfl, early, fresh⟩
    refine ⟨[_], [_], .ok (), rfl, ends_checkDeadline.mpr ⟨instant, rfl, ?_⟩, ?_⟩
    · rw [if_neg (Nat.not_le.mpr early)]
    · rw [if_pos rfl]
      simp only [ends_bind_ok, ends_mapError_ok, ends_unixTimeMs_ok]
      refine ⟨[_], [], wall, rfl, rfl, ?_⟩
      rw [if_pos (show _ = _ from fresh)]
      exact (ends_pure _ _ _).mpr ⟨rfl, rfl⟩

theorem ends_checkStillFresh_error
    {stop : Stop}
    (ended : Ends (checkStillFresh prepared) trace (.error stop)) :
    stop = .failed .clock ∨ (stop = .exit exitUnavailable ∧ OutOfTime prepared trace) := by
  rw [checkStillFresh, ends_attempt_bind] at ended
  obtain ⟨_, _, inTime, rfl, checked, ended⟩ := ended
  obtain ⟨instant, rfl, early⟩ := ends_checkDeadline_reading checked
  split at ended
  · rw [ends_bind] at ended
    rcases ended with ⟨_, _, wall, rfl, read, ended⟩ | ⟨_, failed, equal⟩
    · rw [ends_mapError_ok, ends_unixTimeMs_ok] at read
      subst read
      split at ended
      · exact absurd ((ends_pure _ _ _).mp ended).2 (by simp)
      · rename_i stale
        exact .inr ⟨Except.error.inj ((ends_fail _ _ _).mp ended).2, .inr ⟨wall, by simp, stale⟩⟩
    · obtain ⟨cause, read, rfl⟩ := ends_mapError_error.mp failed
      refine .inl ?_
      rw [Except.error.inj equal, ends_unixTimeMs_error read]
  · rename_i late
    rw [early, Nat.not_lt] at late
    exact .inr ⟨Except.error.inj ((ends_fail _ _ _).mp ended).2, .inl ⟨instant, by simp, late⟩⟩

/-- A response is judged by its decision exactly when every check passes. -/
theorem ends_judgeResponse_ok
    {code : Nat} :
    Ends (judgeResponse crates rounds prepared response) trace (.ok code) ↔
      Accepted crates rounds prepared response trace ∧
        code = exitCodeForDecision response.body.decision := by
  simp only [judgeResponse, ends_bind_ok, ends_mapError_ok, ends_verifyForRequest_ok,
    ends_screenResponse_ok, ends_checkStillFresh_ok, ends_pure]
  constructor
  · rintro ⟨verifying, _, _, rfl, ⟨verified, bound⟩, _, _, _, rfl,
      ⟨wall, instant, recording, rfl, early, fresh, responseFresh, recorded⟩, _, _, _, rfl,
      ⟨lastInstant, lastWall, rfl, stillEarly, stillFresh⟩, rfl, equal⟩
    exact ⟨⟨verifying, wall, instant, recording, lastInstant, lastWall, by simp, verified, bound,
      early, fresh, responseFresh, recorded, stillEarly, stillFresh⟩, Except.ok.inj equal⟩
  · rintro ⟨⟨verifying, wall, instant, recording, lastInstant, lastWall, rfl, verified, bound,
      early, fresh, responseFresh, recorded, stillEarly, stillFresh⟩, rfl⟩
    exact ⟨verifying, _, (), rfl, ⟨verified, bound⟩, _, _, (), rfl,
      ⟨wall, instant, recording, rfl, early, fresh, responseFresh, recorded⟩, _, [], (),
      (List.append_nil _).symm, ⟨lastInstant, lastWall, rfl, stillEarly, stillFresh⟩, rfl, rfl⟩

/-- A response that is not accepted is taken for tampering, unless time ran out or the
clock failed. -/
theorem ends_judgeResponse_error
    {stop : Stop}
    (ended : Ends (judgeResponse crates rounds prepared response) trace (.error stop)) :
    stop = .exit exitTamper ∨ stop = .failed .clock ∨
      (stop = .exit exitUnavailable ∧ OutOfTime prepared trace) := by
  rw [judgeResponse, ends_bind] at ended
  rcases ended with ⟨verifying, _, _, rfl, _, ended⟩ | ⟨_, failed, equal⟩
  · rw [ends_bind] at ended
    rcases ended with ⟨screening, _, _, rfl, _, ended⟩ | ⟨error, failed, equal⟩
    · rw [ends_bind] at ended
      rcases ended with ⟨_, _, _, rfl, _, ended⟩ | ⟨error, failed, equal⟩
      · exact absurd ((ends_pure _ _ _).mp ended).2 (by simp)
      · obtain rfl := Except.error.inj equal
        rcases ends_checkStillFresh_error failed with clock | ⟨unavailable, outOfTime⟩
        · exact .inr (.inl clock)
        · refine .inr (.inr ⟨unavailable, outOfTime.mono ?_⟩)
          simp
    · obtain rfl := Except.error.inj equal
      rcases ends_screenResponse_error failed with tamper | clock | ⟨unavailable, outOfTime⟩
      · exact .inl tamper
      · exact .inr (.inl clock)
      · exact .inr (.inr ⟨unavailable, outOfTime.mono (by simp)⟩)
  · obtain ⟨_, _, rfl⟩ := ends_mapError_error.mp failed
    exact .inl (Except.error.inj equal)

end Judging

/-! ## Preparing a request -/

/-- Preparing a request always ends. Its errors are the exit code of unsafe
configurations and errors without an exit code. -/
def PreparationError (stop : Stop) : Prop :=
  stop = .exit exitUnsafeConfig ∨ ∃ error, stop = .failed error

theorem settles_orUnsafeConfig
    {α ε : Type}
    {routine : Routine ε α}
    (settles : routine.Settles SignsRequests anyError) :
    (orUnsafeConfig routine).Settles SignsRequests PreparationError :=
  (settles.mono fun _ _ => .inl rfl).mapError

theorem settles_failed
    {α : Type}
    {routine : Routine HelperError α}
    (settles : routine.Settles SignsRequests anyError) :
    (routine.mapError .failed).Settles SignsRequests PreparationError :=
  (settles.mono fun error _ => .inr ⟨error, rfl⟩).mapError

theorem settles_requireSome {α : Type} (value : Option α) :
    (requireSome value).Settles SignsRequests PreparationError := by
  cases value with
  | none => exact settles_fail (.inl rfl)
  | some value => exact settles_pure value

theorem settles_prepareRequest (crates : Crates) (args : RequestArgs) :
    (prepareRequest crates args).Settles SignsRequests PreparationError := by
  refine .bind (settles_orUnsafeConfig (settles_loadHelperConfig _ _ _)) fun config =>
    .bind (settles_orUnsafeConfig (settles_loadSigningKey _ _ _)) fun signingKey =>
      .bind (settles_orUnsafeConfig (settles_loadPublicKey _ _ _ _)) fun agentPubkey =>
        .bind (settles_requireSome _) fun socket =>
          .bind (settles_requireSome _) fun hostId =>
            .bind (settles_requireSome _) fun hostname =>
              .bind (settles_orUnsafeConfig (settles_openReplayCache _ _)) fun replayCache =>
                .bind (settles_failed settles_unixTimeMs) fun now =>
                  .bind (settles_orUnsafeConfig (settles_operationBudget _ _)) fun budget => ?_
  split
  · exact settles_fail (.inl rfl)
  · refine .bind (settles_failed ?_) fun body =>
      .bind (settles_failed (settles_signRequest _ _)) fun _ => settles_pure _
    exact .bind (settles_perform trivial) fun _ =>
      .bind (settles_perform trivial) fun _ => settles_pure _

/-! ## Talking to the agent -/

section Exchange

variable {crates : Crates} {rounds : Nat} {prepared : Prepared}
variable {response : SignedAuthResponse} {trace : List HelperEvent}

/-- An error of a routine that reports timeouts only after the deadline. -/
theorem transportExit_expired
    {α : Type}
    {deadline : Nat}
    {routine : Routine TransportError α}
    {stop : Stop}
    (meets : routine.Meets (patience rounds deadline) []
      fun later result => result = .error .timeout -> Expired deadline later)
    (failed : Ends (routine.mapError fun error => .exit (transportExit error)) trace
      (.error stop)) :
    stop = .exit exitProtocol ∨ (stop = .exit exitUnavailable ∧ Expired deadline trace) := by
  obtain ⟨error, ended, rfl⟩ := ends_mapError_error.mp failed
  have expired := meets.outcome ended fun _ _ _ _ => trivial
  cases error with
  | timeout => exact .inr ⟨rfl, expired rfl⟩
  | io error => exact .inl rfl
  | json => exact .inl rfl
  | oversized length => exact .inl rfl

/-- A complete frame arrived and decoded to the response. -/
def Decoded
    (crates : Crates)
    (response : SignedAuthResponse)
    (trace : List HelperEvent) : Prop :=
  ∃ payload, received trace = lengthPrefixed 4 payload ∧ payload.length ≤ maxFrameLen ∧
    crates.responseFromJson payload = some response

theorem ends_readResponse_decoded
    {deadline : Nat}
    (ended : Ends (readResponse crates deadline rounds) trace (.ok response)) :
    Decoded crates response trace := by
  rw [readResponse, ends_bind_ok] at ended
  obtain ⟨first, second, payload, rfl, read, ended⟩ := ended
  obtain ⟨whole, bounded⟩ := received_readFrame read
  split at ended
  · rename_i decoded
    obtain ⟨rfl, equal⟩ := (ends_pure _ _ _).mp ended
    refine ⟨payload, by simpa using whole, bounded, ?_⟩
    rw [decoded, Except.ok.inj equal]
  · exact absurd ((ends_fail _ _ _).mp ended).2 (by simp)

/-- The helper connected, sent its request and received a response. -/
def Exchanged
    (crates : Crates)
    (rounds : Nat)
    (prepared : Prepared)
    (response : SignedAuthResponse)
    (trace : List HelperEvent) : Prop :=
  ∃ connecting sending receiving,
    trace = connecting ++ (sending ++ receiving) ∧
    Ends (connectStream prepared.socket prepared.deadline rounds) connecting (.ok ()) ∧
    Ends (writeFrame prepared.deadline rounds (crates.requestToJson prepared.request)) sending
      (.ok ()) ∧
    Ends (readResponse crates prepared.deadline rounds) receiving (.ok response) ∧
    Decoded crates response receiving

theorem ends_exchange_ok :
    Ends (exchange crates rounds prepared) trace (.ok response) ↔
      Exchanged crates rounds prepared response trace := by
  simp only [exchange, ends_bind_ok, ends_mapError_ok]
  constructor
  · rintro ⟨connecting, _, _, rfl, connected, sending, receiving, _, rfl, sent, received⟩
    exact ⟨connecting, sending, receiving, rfl, connected, sent, received,
      ends_readResponse_decoded received⟩
  · rintro ⟨connecting, sending, receiving, rfl, connected, sent, received, _⟩
    exact ⟨connecting, _, (), rfl, connected, sending, receiving, (), rfl, sent, received⟩

/-- An exchange that fails is a violation of the protocol, unless the agent could not be
reached or the deadline passed. -/
theorem ends_exchange_error
    {stop : Stop}
    (ended : Ends (exchange crates rounds prepared) trace (.error stop)) :
    stop = .exit exitProtocol ∨
      (stop = .exit exitUnavailable ∧
        ((∃ error, Ends (connectStream prepared.socket prepared.deadline rounds) trace
          (.error error)) ∨ Expired prepared.deadline trace)) := by
  rw [exchange, ends_bind] at ended
  rcases ended with ⟨connecting, _, _, rfl, _, ended⟩ | ⟨_, failed, equal⟩
  · rw [ends_bind] at ended
    rcases ended with ⟨sending, receiving, _, rfl, _, failed⟩ | ⟨error, failed, equal⟩
    · rcases transportExit_expired (patient_readResponse crates) failed with
        broken | ⟨unavailable, expired⟩
      · exact .inl broken
      · refine .inr ⟨unavailable, .inr ?_⟩
        obtain ⟨now, member, late⟩ := expired
        exact ⟨now, by simp [member], late⟩
    · obtain rfl := Except.error.inj equal
      rcases transportExit_expired (patient_writeFrame _) failed with
        broken | ⟨unavailable, expired⟩
      · exact .inl broken
      · refine .inr ⟨unavailable, .inr ?_⟩
        obtain ⟨now, member, late⟩ := expired
        exact ⟨now, by simp [member], late⟩
  · obtain ⟨error, unreachable, rfl⟩ := ends_mapError_error.mp failed
    exact .inr ⟨Except.error.inj equal, .inl ⟨error, unreachable⟩⟩

end Exchange

/-! ## Verdicts -/

/-- The results of `pam_sm_authenticate` that depend on the helper. -/
inductive PamResult
  | success
  | authinfoUnavail
  | authErr
  deriving DecidableEq

def mapExitToPam (exitCode : Nat) : PamResult :=
  if exitCode = exitApproved then .success
  else if exitCode = exitUnavailable ∨ exitCode = exitCancelled ∨ exitCode = exitFailed then
    .authinfoUnavail
  else .authErr

section Verdicts

variable {crates : Crates} {rounds : Nat} {args : RequestArgs} {trace : List HelperEvent}

/-- After `trace` the helper had prepared its request, and `later` is what it has done
since. -/
def Reaches
    (crates : Crates)
    (args : RequestArgs)
    (trace : List HelperEvent)
    (prepared : Prepared)
    (later : List HelperEvent) : Prop :=
  ∃ setup, trace = setup ++ later ∧ Ends (prepareRequest crates args) setup (.ok prepared)

/-- A response with this decision was received and passed every check. -/
def Answered
    (crates : Crates)
    (rounds : Nat)
    (args : RequestArgs)
    (trace : List HelperEvent)
    (decision : Decision) : Prop :=
  ∃ prepared exchanging judging response,
    Reaches crates args trace prepared (exchanging ++ judging) ∧
    Exchanged crates rounds prepared response exchanging ∧
    Accepted crates rounds prepared response judging ∧
    response.body.decision = decision

/-- The connection could not be made. -/
def Unreachable
    (crates : Crates)
    (rounds : Nat)
    (args : RequestArgs)
    (trace : List HelperEvent) : Prop :=
  ∃ prepared connecting error, Reaches crates args trace prepared connecting ∧
    Ends (connectStream prepared.socket prepared.deadline rounds) connecting (.error error)

/-- The deadline passed or the request ceased to be fresh. -/
def RanOutOfTime
    (crates : Crates)
    (args : RequestArgs)
    (trace : List HelperEvent) : Prop :=
  ∃ prepared later, Reaches crates args trace prepared later ∧ OutOfTime prepared later

/-- The three ways in which handling a request ends early, by exit code. -/
theorem ends_runRequest_error
    {stop : Stop}
    (ended : Ends (runRequest crates rounds args) trace (.error stop)) :
    (∃ error, stop = .failed error) ∨
      (∃ code, stop = .exit code ∧ code ∈ [exitTamper, exitUnsafeConfig, exitProtocol]) ∨
      (stop = .exit exitUnavailable ∧
        (Unreachable crates rounds args trace ∨ RanOutOfTime crates args trace)) := by
  rw [runRequest, ends_bind] at ended
  rcases ended with ⟨setup, later, prepared, rfl, setUp, ended⟩ | ⟨error, failed, equal⟩
  · have reaches : Reaches crates args (setup ++ later) prepared later := ⟨setup, rfl, setUp⟩
    rw [ends_bind] at ended
    rcases ended with ⟨exchanging, judging, response, rfl, _, ended⟩ | ⟨error, failed, equal⟩
    · rcases ends_judgeResponse_error ended with tamper | clock | ⟨unavailable, outOfTime⟩
      · exact .inr (.inl ⟨_, tamper, by simp⟩)
      · exact .inl ⟨_, clock⟩
      · exact .inr (.inr ⟨unavailable, .inr ⟨prepared, _, reaches, outOfTime.mono (by simp)⟩⟩)
    · obtain rfl := Except.error.inj equal
      rcases ends_exchange_error failed with broken | ⟨unavailable, ⟨error, unreachable⟩ | expired⟩
      · exact .inr (.inl ⟨_, broken, by simp⟩)
      · exact .inr (.inr ⟨unavailable, .inl ⟨prepared, _, error, reaches, unreachable⟩⟩)
      · exact .inr (.inr ⟨unavailable, .inr ⟨prepared, _, reaches, .inl expired⟩⟩)
  · obtain rfl := Except.error.inj equal
    rcases (settles_prepareRequest crates args).error failed with unsafeConfig | failed
    · exact .inr (.inl ⟨_, unsafeConfig, by simp⟩)
    · exact .inl failed

/-- A request is answered exactly when some decision passes every check. -/
theorem ends_runRequest_ok
    {code : Nat} :
    Ends (runRequest crates rounds args) trace (.ok code) ↔
      ∃ decision, Answered crates rounds args trace decision ∧
        code = exitCodeForDecision decision := by
  simp only [runRequest, ends_bind_ok, ends_exchange_ok, ends_judgeResponse_ok]
  constructor
  · rintro ⟨setup, _, prepared, rfl, setUp, exchanging, judging, response, rfl, exchanged,
      accepted, rfl⟩
    exact ⟨_, ⟨prepared, exchanging, judging, response, ⟨setup, rfl, setUp⟩, exchanged, accepted,
      rfl⟩, rfl⟩
  · rintro ⟨_, ⟨prepared, exchanging, judging, response, ⟨setup, rfl, setUp⟩, exchanged, accepted,
      rfl⟩, rfl⟩
    exact ⟨setup, _, prepared, rfl, setUp, exchanging, judging, response, rfl, exchanged,
      accepted, rfl⟩

theorem patient_exchange {prepared : Prepared} {past : List HelperEvent} :
    (exchange crates rounds prepared).Meets (patience rounds prepared.deadline) past
      fun _ _ => True := by
  refine Meets.mapError_bind (patient_connectStream _) ?_ fun _ _ _ => trivial
  intro _ _ _
  refine Meets.mapError_bind (patient_writeFrame _) ?_ fun _ _ _ => trivial
  intro _ _ _
  rw [meets_mapError]
  exact (patient_readResponse crates).mono fun _ _ _ => trivial

theorem settles_verifyForRequest
    (crates : Crates)
    (response : SignedAuthResponse)
    (request : AuthRequestBody)
    (publicKey : Bytes) :
    (verifyForRequest crates response request publicKey).Settles SignsRequests anyError := by
  refine .bind (.bind (settles_done fun _ _ => trivial) fun bytes => ?_)
    fun _ => settles_done fun _ _ => trivial
  unfold verifyEd25519
  split
  · trivial
  · split
    · trivial
    · refine .bind (settles_perform trivial) fun valid => ?_
      split <;> trivial

theorem settles_checkDeadline (deadline : Nat) :
    (checkDeadline deadline).Settles SignsRequests anyError := by
  refine .bind (settles_perform trivial) fun now => ?_
  split <;> trivial

theorem patient_screenResponse
    {prepared : Prepared}
    {response : SignedAuthResponse}
    {past : List HelperEvent} :
    (screenResponse crates.digest rounds prepared.deadline prepared.request
      prepared.allowedFutureSkewMs prepared.replayCache response).Meets
        (patience rounds prepared.deadline) past fun _ _ => True := by
  refine Meets.mapError_bind (settles_unixTimeMs.meets fun _ _ => id) ?_
    fun _ _ _ => trivial
  intro _ now _
  refine Meets.attempt_bind ((settles_checkDeadline _).meets fun _ _ => id) ?_
  intro _ inTime _
  split
  · split
    · split
      · trivial
      · refine Meets.attempt_bind (patient_recordReplayMarker _ _ _) ?_
        intro _ recorded _
        cases recorded <;> trivial
    · trivial
  · trivial

theorem settles_checkStillFresh (prepared : Prepared) :
    (checkStillFresh prepared).Settles SignsRequests anyError := by
  refine .bind (settles_checkDeadline _).attempt fun inTime => ?_
  split
  · refine .bind (Settles.mapError settles_unixTimeMs) fun now => ?_
    split <;> trivial
  · trivial

theorem patient_judgeResponse
    {prepared : Prepared}
    {response : SignedAuthResponse}
    {past : List HelperEvent} :
    (judgeResponse crates rounds prepared response).Meets
      (patience rounds prepared.deadline) past fun _ _ => True := by
  refine Meets.mapError_bind ((settles_verifyForRequest _ _ _ _).meets fun _ _ => id) ?_
    fun _ _ _ => trivial
  intro _ _ _
  refine Meets.bind patient_screenResponse ?_ fun _ _ _ => trivial
  intro _ _ _
  refine Meets.bind ((settles_checkStillFresh _).meets fun _ _ => id) ?_
    fun _ _ _ => trivial
  intro _ _ _
  trivial

/-- Handling a request gives up only after as many rounds before the deadline, or as many
entries of the cache directory, as it was given. -/
theorem runRequest_exhausted
    (steps : Steps (runRequest crates rounds args) trace .exhausted) :
    ∃ prepared later, Reaches crates args trace prepared later ∧
      rounds ≤ roundsIn prepared.deadline later := by
  rcases steps_bind_exhausted steps with never | ⟨setup, later, prepared, rfl, setUp, steps⟩
  · exact absurd never (settles_prepareRequest crates args).not_exhausted
  · refine ⟨prepared, later, ⟨setup, rfl, setUp⟩, ?_⟩
    rcases steps_bind_exhausted steps with
      steps | ⟨exchanging, judging, response, rfl, _, steps⟩
    · exact patient_exchange.exhaustion steps fun _ _ _ _ => trivial
    · have counted : rounds ≤ roundsIn prepared.deadline judging :=
        patient_judgeResponse.exhaustion steps fun _ _ _ _ => trivial
      simp only [roundsIn, List.countP_append] at counted ⊢
      omega

/-- A run that ends early never succeeds, and falls back only if the agent could not be
reached or time ran out. -/
theorem mapExitToPam_error
    {stop : Stop}
    (ended : Ends (runRequest crates rounds args) trace (.error stop)) :
    mapExitToPam (exitCode (.error stop)) = .authErr ∨
      (mapExitToPam (exitCode (.error stop)) = .authinfoUnavail ∧
        (Unreachable crates rounds args trace ∨ RanOutOfTime crates args trace)) := by
  rcases ends_runRequest_error ended with ⟨error, rfl⟩ | ⟨code, rfl, member⟩ | ⟨rfl, reason⟩
  · exact .inl rfl
  · refine .inl ?_
    simp only [List.mem_cons, List.not_mem_nil, or_false] at member
    rcases member with rfl | rfl | rfl <;> rfl
  · exact .inr ⟨rfl, reason⟩

/-- Classification of the whole authentication path. For every configuration and every
sequence of answers, the helper's exit code means success exactly when a complete frame
decoded to an approval that passed every check, falls back only if the connection could
not be made, time ran out or a response that passed every check says so, and means refusal
otherwise. A decoded response that fails verification ends with exit code 30. The helper
does end: as long as the rounds last, which are used up only before the deadline and by
entries of the cache directory. -/
theorem runRequest_classified
    (crates : Crates)
    (rounds : Nat)
    (args : RequestArgs)
    (trace : List HelperEvent) :
    (∀ result, Ends (runRequest crates rounds args) trace result ->
      (mapExitToPam (exitCode result) = .success ↔
        Answered crates rounds args trace .approved) ∧
      (mapExitToPam (exitCode result) = .authinfoUnavail ->
        Unreachable crates rounds args trace ∨ RanOutOfTime crates args trace ∨
          ∃ decision ∈ [Decision.unavailable, .cancelled, .failed],
            Answered crates rounds args trace decision) ∧
      (¬Answered crates rounds args trace .approved ->
        ¬(Unreachable crates rounds args trace ∨ RanOutOfTime crates args trace ∨
          ∃ decision ∈ [Decision.unavailable, .cancelled, .failed],
            Answered crates rounds args trace decision) ->
        mapExitToPam (exitCode result) = .authErr)) ∧
    (∀ prepared exchanging verifying response error,
      Reaches crates args trace prepared (exchanging ++ verifying) ->
      Exchanged crates rounds prepared response exchanging ->
      Ends (verifyForRequest crates response prepared.request.body prepared.agentPubkey)
        verifying (.error error) ->
      ∃ result, Ends (runRequest crates rounds args) trace result ∧ exitCode result = 30) ∧
    (Steps (runRequest crates rounds args) trace .exhausted ->
      ∃ prepared later, Reaches crates args trace prepared later ∧
        rounds ≤ roundsIn prepared.deadline later) := by
  refine ⟨?_, ?_, runRequest_exhausted⟩
  · intro result ended
    have success : mapExitToPam (exitCode result) = .success ↔
        Answered crates rounds args trace .approved := by
      constructor
      · intro verdict
        cases result with
        | ok code =>
            obtain ⟨decision, answered, rfl⟩ := ends_runRequest_ok.mp ended
            cases decision with
            | approved => exact answered
            | denied | unavailable | cancelled | failed => cases verdict
        | error stop =>
            rcases mapExitToPam_error ended with refused | ⟨fallback, _⟩ <;> simp_all
      · intro answered
        have answers := ends_runRequest_ok.mpr ⟨_, answered, rfl⟩
        rw [ended.unique answers]
        rfl
    have fallback : mapExitToPam (exitCode result) = .authinfoUnavail ->
        Unreachable crates rounds args trace ∨ RanOutOfTime crates args trace ∨
          ∃ decision ∈ [Decision.unavailable, .cancelled, .failed],
            Answered crates rounds args trace decision := by
      intro verdict
      cases result with
      | ok code =>
          obtain ⟨decision, answered, rfl⟩ := ends_runRequest_ok.mp ended
          refine .inr (.inr ⟨decision, ?_, answered⟩)
          cases decision with
          | approved | denied => cases verdict
          | unavailable | cancelled | failed => simp
      | error stop =>
          rcases mapExitToPam_error ended with refused | ⟨_, unreachable | outOfTime⟩
          · exact absurd (verdict.symm.trans refused) (by simp)
          · exact .inl unreachable
          · exact .inr (.inl outOfTime)
    refine ⟨success, fallback, fun notApproved noFallback => ?_⟩
    cases verdict : mapExitToPam (exitCode result) with
    | success => exact absurd (success.mp verdict) notApproved
    | authinfoUnavail => exact absurd (fallback verdict) noFallback
    | authErr => rfl
  · rintro prepared exchanging verifying response error ⟨setup, rfl, setUp⟩ exchanged failed
    refine ⟨.error (.exit exitTamper), ?_, rfl⟩
    refine (ends_bind _ _ _ _).mpr (.inl ⟨setup, _, prepared, rfl, setUp, ?_⟩)
    refine (ends_bind _ _ _ _).mpr
      (.inl ⟨exchanging, verifying, response, rfl, ends_exchange_ok.mpr exchanged, ?_⟩)
    refine (ends_bind _ _ _ _).mpr (.inr ⟨_, ends_mapError_error.mpr ⟨error, failed, rfl⟩, rfl⟩)

end Verdicts

end Helper
end MacosAuth
