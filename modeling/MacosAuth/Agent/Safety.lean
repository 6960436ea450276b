import MacosAuth.Agent.Serve
import MacosAuth.Effect.System

/-!
# Safety of the serve path

A worker of the agent starts an authentication session or touches the rate limiter only
for a request that it has looked up, verified and found fresh. It sends a response only
right after a check of the request's lifetime, the response answers that very request
within its validity, and an approval is sent only if the session of that request has
completed with one.

The first sections say what the parts of `handleServeRequest` establish. They are put
together as a contract on the calls of a worker, which holds in every run of any number
of workers with any behaviour of peers, sessions and clocks.
-/

namespace MacosAuth
namespace Agent

open Codec
open Effect Effect.Program

variable {Key : Type}

/-! ## Calls that need no reason -/

/-- Calls that read the monotonic clock or wait for the socket. -/
def IsTiming : Call Key -> Prop
  | .uptimeNs | .poll _ _ => True
  | _ => False

/-- Calls that read a request from the peer. -/
def IsReading : Call Key -> Prop
  | .uptimeNs | .poll _ _ | .recv _ => True
  | _ => False

/-- Calls that neither touch shared state on behalf of a request nor produce a response. -/
def IsFree : Call Key -> Prop
  | .limiterAllow _ | .makeSession | .sessionStart _ _ | .sign _ | .send _ => False
  | _ => True

theorem within_deadline_check
    {permitted : Call Key -> Prop}
    (clock : permitted .uptimeNs)
    (deadline : Deadline) :
    (deadline.check).Within permitted := by
  refine .bind (.bind (within_perform clock) fun _ => trivial) fun remaining => ?_
  split <;> trivial

theorem within_waitForSocket
    (platform : Platform Key)
    (interest : Interest)
    (deadline : Deadline)
    (rounds : Nat) :
    (waitForSocket platform interest deadline rounds).Within IsTiming := by
  induction rounds with
  | zero => trivial
  | succ rounds inductionHypothesis =>
      refine .bind (within_deadline_check trivial deadline) fun _ =>
        .bind (.bind (within_perform trivial) fun _ => trivial) fun remaining =>
          .bind (within_perform trivial) fun result => ?_
      cases result with
      | interrupted => exact inductionHypothesis
      | failed code => trivial
      | timedOut => trivial
      | ready invalid =>
          refine .bind (within_deadline_check trivial deadline) fun _ => ?_
          split <;> trivial

theorem isFree_of_isTiming
    (request : Call Key)
    (timing : IsTiming request) :
    IsFree request := by
  cases request <;> trivial

theorem isReading_of_isTiming
    (request : Call Key)
    (timing : IsTiming request) :
    IsReading request := by
  cases request <;> trivial

theorem isFree_of_isReading
    (request : Call Key)
    (reading : IsReading request) :
    IsFree request := by
  cases request <;> trivial

theorem within_readLoop
    (platform : Platform Key)
    (deadline : Deadline)
    (waitRounds rounds missing : Nat) :
    (readLoop platform deadline waitRounds rounds missing).Within IsReading := by
  induction rounds generalizing missing with
  | zero =>
      unfold readLoop
      split <;> trivial
  | succ rounds inductionHypothesis =>
      unfold readLoop
      split
      · trivial
      · refine .bind ((within_waitForSocket _ _ _ _).mono isReading_of_isTiming) fun _ =>
          .bind (within_perform trivial) fun result => ?_
        cases result with
        | again => exact inductionHypothesis _
        | closed => trivial
        | failed code => trivial
        | received bytes => exact .bind (inductionHypothesis _) fun _ => trivial

theorem within_readJSONFrame
    (platform : Platform Key)
    (deadline : Deadline)
    (rounds : Nat) :
    (readJSONFrame platform deadline rounds).Within IsReading := by
  refine .bind (within_readLoop _ _ _ _ _) fun lengthData => ?_
  dsimp only
  split
  · trivial
  · refine .bind (within_readLoop _ _ _ _ _) fun bodyData => ?_
    split <;> trivial

theorem within_lifetime_check (lifetime : RequestLifetime) :
    (lifetime.check : Routine Key Unit).Within IsFree := by
  refine .bind (within_perform trivial) fun cancelled => ?_
  split
  · trivial
  · refine .bind (Within.attempt ?_) fun result => ?_
    · refine .bind (within_deadline_check trivial _) fun _ =>
        .bind (within_perform trivial) fun now => ?_
      split
      · refine .bind (within_perform trivial) fun peeked => ?_
        cases peeked <;> trivial
      · trivial
    · cases result with
      | ok _ => trivial
      | error error => exact .bind (within_perform trivial) fun _ => trivial

theorem within_capped
    {permitted : Call Key -> Prop}
    (clock : permitted .uptimeNs)
    (deadline : Deadline)
    (milliseconds : UInt64) :
    (deadline.capped milliseconds).Within permitted :=
  .bind (.bind (within_perform clock) fun _ => trivial) fun _ => trivial

theorem within_receiveRequest
    (platform : Platform Key)
    (runtime : AgentRuntime Key)
    (deadline : Deadline)
    (rounds : Nat) :
    (receiveRequest platform runtime deadline rounds).Within IsFree := by
  refine .bind (within_capped trivial _ _) fun readDeadline =>
    .bind ((within_readJSONFrame _ _ _).mono isFree_of_isReading) fun request => ?_
  split
  · trivial
  · refine .bind (.bind (within_done _) fun bytes => .bind (within_perform trivial) fun valid => ?_)
      fun _ => trivial
    split
    · exact .bind (within_perform trivial) fun _ => within_done _
    · trivial

theorem within_lifetime_start (expiresAtMs : UInt64) (deadline : Deadline) :
    (RequestLifetime.start expiresAtMs deadline : Routine Key _).Within IsFree :=
  .bind (within_perform trivial) fun _ => .bind (within_capped trivial _ _) fun _ => trivial

theorem within_awaitSlot (lifetime : RequestLifetime) (rounds : Nat) :
    (awaitSlot lifetime rounds : Routine Key Unit).Within IsFree := by
  induction rounds with
  | zero => trivial
  | succ rounds inductionHypothesis =>
      refine .bind (within_perform trivial) fun acquired => ?_
      split
      · trivial
      · exact .bind (within_lifetime_check _) fun _ => inductionHypothesis

theorem within_awaitResult (lifetime : RequestLifetime) (rounds : Nat) :
    (awaitResult lifetime rounds : Routine Key Unit).Within IsFree := by
  induction rounds with
  | zero => trivial
  | succ rounds inductionHypothesis =>
      refine .bind (within_perform trivial) fun value => ?_
      cases value with
      | some decision => trivial
      | none =>
          exact .bind (within_lifetime_check _) fun _ =>
            .bind (within_perform trivial) fun _ => inductionHypothesis

/-! ## What the parts establish -/

/-- The bytes that arrived from the peer. -/
def received (past : List (AgentEvent Key)) : Bytes :=
  past.flatMap fun
    | ⟨.recv _, .received bytes⟩ => bytes.val
    | _ => []

@[simp] theorem received_append (first second : List (AgentEvent Key)) :
    received (first ++ second) = received first ++ received second := by
  simp [received]

/-- Nothing arrives while the worker waits. -/
theorem received_timing
    {trace : List (AgentEvent Key)}
    (timing : ∀ event ∈ trace, IsTiming event.call) :
    received trace = [] := by
  unfold received
  rw [List.flatMap_eq_nil_iff]
  rintro ⟨request, answer⟩ member
  have timed := timing _ member
  cases request <;> first | rfl | cases timed

/-- `readExactly` returns the bytes that arrived meanwhile, all that were asked for. -/
theorem received_readLoop
    {platform : Platform Key}
    {deadline : Deadline}
    {waitRounds rounds missing : Nat}
    {trace : List (AgentEvent Key)}
    {bytes : Bytes}
    (ended : Ends (readLoop platform deadline waitRounds rounds missing) trace (.ok bytes)) :
    received trace = bytes ∧ bytes.length = missing := by
  induction rounds generalizing missing trace bytes with
  | zero =>
      unfold readLoop at ended
      split at ended
      · rename_i none
        obtain ⟨rfl, equal⟩ := (ends_pure _ _ _).mp ended
        obtain rfl := Except.ok.inj equal
        exact ⟨rfl, none.symm⟩
      · exact absurd ended (not_ends_exhausted _ _)
  | succ rounds inductionHypothesis =>
      unfold readLoop at ended
      split at ended
      · rename_i none
        obtain ⟨rfl, equal⟩ := (ends_pure _ _ _).mp ended
        obtain rfl := Except.ok.inj equal
        exact ⟨rfl, none.symm⟩
      · rw [ends_bind_ok] at ended
        obtain ⟨waiting, _, _, rfl, waited, ended⟩ := ended
        have silent := received_timing ((within_waitForSocket _ _ _ _).calls waited)
        rw [ends_perform_bind] at ended
        obtain ⟨result, rest, rfl, ended⟩ := ended
        rw [received_append, silent, List.nil_append]
        cases result with
        | again => simpa [received] using inductionHypothesis ended
        | closed => exact absurd ((ends_fail _ _ _).mp ended).2 (by simp)
        | failed code => exact absurd ((ends_fail _ _ _).mp ended).2 (by simp)
        | received chunk =>
            simp only [ends_bind_ok, ends_pure] at ended
            obtain ⟨reading, _, others, rfl, read, rfl, equal⟩ := ended
            obtain rfl := Except.ok.inj equal
            obtain ⟨arrived, length_eq⟩ := inductionHypothesis read
            have bound := chunk.property.2
            refine ⟨?_, ?_⟩
            · simpa [received] using arrived
            · rw [List.length_append, length_eq]
              omega

/-- A complete frame arrived and decoded to the request. -/
theorem ends_readJSONFrame
    {platform : Platform Key}
    {deadline : Deadline}
    {rounds : Nat}
    {trace : List (AgentEvent Key)}
    {request : SignedAuthRequest}
    (ended : Ends (readJSONFrame platform deadline rounds) trace (.ok request)) :
    ∃ payload, received trace = lengthPrefixed 4 payload ∧
      platform.requestFromJson payload = some request := by
  rw [readJSONFrame, ends_bind_ok] at ended
  obtain ⟨first, _, lengthData, rfl, read, ended⟩ := ended
  obtain ⟨header, width⟩ := received_readLoop read
  dsimp only at ended
  split at ended
  · exact absurd ((ends_fail _ _ _).mp ended).2 (by simp)
  · rw [ends_bind_ok] at ended
    obtain ⟨second, _, payload, rfl, readBody, ended⟩ := ended
    obtain ⟨body, length_eq⟩ := received_readLoop readBody
    split at ended
    · rename_i decoded
      obtain ⟨rfl, equal⟩ := (ends_pure _ _ _).mp ended
      refine ⟨payload, ?_, by rw [decoded, Except.ok.inj equal]⟩
      have prefix_eq := bigEndian_fromBigEndian lengthData
      rw [width] at prefix_eq
      rw [List.append_nil, received_append, header, body, lengthPrefixed, length_eq, prefix_eq]
    · exact absurd ((ends_fail _ _ _).mp ended).2 (by simp)

@[simp] theorem ends_liftExcept_ok
    {α : Type}
    {result : Except AgentError α}
    {trace : List (AgentEvent Key)}
    {value : α} :
    Ends (liftExcept result) trace (.ok value) ↔ trace = [] ∧ result = .ok value := by
  cases result <;> simp [liftExcept, Except.mapError, eq_comm]

/-- The host of the request is known, its signature was verified and it was fresh. -/
def Authorized
    (platform : Platform Key)
    (runtime : AgentRuntime Key)
    (request : SignedAuthRequest)
    (past : List (AgentEvent Key)) : Prop :=
  ∃ reading later payload verifier bytes now,
    past = reading ++ (⟨.isValidSignature verifier.publicKey request.signature bytes, true⟩ ::
      ⟨.wallTimeMs, now⟩ :: later) ∧
    received reading = lengthPrefixed 4 payload ∧
    platform.requestFromJson payload = some request ∧
    platform.keys.verifierFor runtime.hostVerifiers request.body.linuxHostId = some verifier ∧
    request.body.canonicalBytes = .ok bytes ∧
    request.body.verifyFreshness now runtime.allowedFutureSkewMs = .ok ()

theorem Authorized.append
    {platform : Platform Key}
    {runtime : AgentRuntime Key}
    {request : SignedAuthRequest}
    {past : List (AgentEvent Key)}
    (authorized : Authorized platform runtime request past)
    (further : List (AgentEvent Key)) :
    Authorized platform runtime request (past ++ further) := by
  obtain ⟨reading, later, payload, verifier, bytes, now, rfl, facts⟩ := authorized
  exact ⟨reading, later ++ further, payload, verifier, bytes, now, by simp, facts⟩

theorem ends_receiveRequest
    {platform : Platform Key}
    {runtime : AgentRuntime Key}
    {deadline : Deadline}
    {rounds : Nat}
    {trace : List (AgentEvent Key)}
    {request : SignedAuthRequest}
    (ended : Ends (receiveRequest platform runtime deadline rounds) trace (.ok request)) :
    Authorized platform runtime request trace := by
  rw [receiveRequest, ends_bind_ok] at ended
  obtain ⟨capping, _, readDeadline, rfl, cap, ended⟩ := ended
  have silent : received capping = [] :=
    received_timing ((within_capped trivial deadline 2000).calls cap)
  rw [ends_bind_ok] at ended
  obtain ⟨reading, _, read, rfl, readFrame, ended⟩ := ended
  obtain ⟨payload, arrived, decoded⟩ := ends_readJSONFrame readFrame
  split at ended
  · exact absurd ((ends_fail _ _ _).mp ended).2 (by simp)
  · rename_i verifier known
    simp only [ends_bind_ok, ends_pure, verifyRequest, ends_liftExcept_ok, ends_perform] at ended
    obtain ⟨_, _, _, rfl, ⟨_, _, bytes, rfl, ⟨rfl, encoded⟩, _, _, valid, rfl,
      ⟨_, rfl, answered⟩, ended⟩, rfl, equal⟩ := ended
    obtain rfl := Except.ok.inj equal
    obtain rfl := Except.ok.inj answered
    split at ended
    · rename_i verified
      simp only [ends_bind_ok, ends_perform, ends_liftExcept_ok] at ended
      obtain ⟨_, _, now, rfl, ⟨_, rfl, equal⟩, rfl, fresh⟩ := ended
      obtain rfl := Except.ok.inj equal
      obtain rfl : valid = true := verified
      exact ⟨capping ++ reading, [], payload, verifier, bytes, now, by simp, by simp [silent, arrived],
        decoded, known, encoded, fresh⟩
    · exact absurd ((ends_fail _ _ _).mp ended).2 (by simp)

/-- A deadline lies no later than the given number of milliseconds after `now`. -/
theorem toNat_deadlineAfter_le (now milliseconds : UInt64) :
    (deadlineAfter now milliseconds).toNat ≤ now.toNat + milliseconds.toNat * 1000000 := by
  unfold deadlineAfter
  split
  · rename_i overflow
    have largest : (UInt64.ofNat (UInt64.size - 1)).toNat = UInt64.size - 1 := rfl
    omega
  · rename_i small
    have size : UInt64.size = 2 ^ 64 := rfl
    have million : (1000000 : UInt64).toNat = 1000000 := rfl
    rw [UInt64.toNat_add, UInt64.toNat_mul, million]
    omega

/-- What a lifetime is made of: it ends with the connection deadline, and with the expiry
of the request as seen from the clocks when it was created. -/
def Started
    (connectionDeadline : Deadline)
    (expiresAtMs : UInt64)
    (lifetime : RequestLifetime)
    (trace : List (AgentEvent Key)) : Prop :=
  ∃ wall now : UInt64, trace = [⟨.wallTimeMs, wall⟩, ⟨.uptimeNs, now⟩] ∧
    lifetime.expiresAtMs = expiresAtMs ∧
    lifetime.deadline.uptimeNs = min connectionDeadline.uptimeNs
      (deadlineAfter now (if wall < expiresAtMs then expiresAtMs - wall else 0))

theorem ends_lifetime_start
    {expiresAtMs : UInt64}
    {connectionDeadline : Deadline}
    {lifetime : RequestLifetime}
    {trace : List (AgentEvent Key)}
    (ended : Ends (RequestLifetime.start expiresAtMs connectionDeadline) trace (.ok lifetime)) :
    Started connectionDeadline expiresAtMs lifetime trace := by
  simp only [RequestLifetime.start, Deadline.capped, Deadline.start, ends_bind_ok, ends_perform,
    ends_pure] at ended
  obtain ⟨_, _, wall, rfl, ⟨_, rfl, equal⟩, _, _, _, rfl, ⟨_, _, _, rfl, ⟨_, _, now, rfl,
    ⟨_, rfl, read⟩, rfl, started⟩, rfl, capped⟩, rfl, built⟩ := ended
  obtain rfl := Except.ok.inj equal
  obtain rfl := Except.ok.inj read
  obtain rfl := Except.ok.inj started
  obtain rfl := Except.ok.inj capped
  obtain rfl := Except.ok.inj built
  exact ⟨wall, now, rfl, rfl, rfl⟩

/-- A check of the lifetime that passed. -/
def Alive
    (lifetime : RequestLifetime)
    (trace : List (AgentEvent Key)) : Prop :=
  ∃ now wall : UInt64,
    trace = [⟨.lifetimeCancelled, false⟩, ⟨.uptimeNs, now⟩, ⟨.wallTimeMs, wall⟩,
      ⟨.peek, .again⟩] ∧
    now < lifetime.deadline.uptimeNs ∧ wall < lifetime.expiresAtMs

theorem remainingAt_pos_iff {deadline : Deadline} {now : UInt64} :
    0 < deadline.remainingAt now ↔ now < deadline.uptimeNs := by
  unfold Deadline.remainingAt
  split
  · rename_i early
    simp only [early, iff_true]
    omega
  · rename_i late
    simp [late]

theorem ends_deadline_check_ok
    {deadline : Deadline}
    {trace : List (AgentEvent Key)}
    {result : Unit} :
    Ends deadline.check trace (.ok result) ↔
      ∃ now : UInt64, trace = [⟨.uptimeNs, now⟩] ∧ now < deadline.uptimeNs := by
  simp only [Deadline.check, Deadline.remainingMilliseconds, ends_bind_ok, ends_perform, ends_pure]
  constructor
  · rintro ⟨_, _, remaining, rfl, ⟨_, _, now, rfl, ⟨_, rfl, equal⟩, rfl, returned⟩, ended⟩
    obtain rfl := Except.ok.inj equal
    obtain rfl := Except.ok.inj returned
    split at ended
    · rename_i positive
      obtain ⟨rfl, _⟩ := (ends_pure _ _ _).mp ended
      exact ⟨now, rfl, remainingAt_pos_iff.mp positive⟩
    · exact absurd ((ends_fail _ _ _).mp ended).2 (by simp)
  · rintro ⟨now, rfl, early⟩
    refine ⟨[_], [], _, rfl, ⟨[_], [], now, rfl, ⟨now, rfl, rfl⟩, rfl, rfl⟩, ?_⟩
    rw [if_pos (remainingAt_pos_iff.mpr early)]
    exact (ends_pure _ _ _).mpr ⟨rfl, rfl⟩

theorem ends_lifetime_check_ok
    {lifetime : RequestLifetime}
    {trace : List (AgentEvent Key)}
    {result : Unit} :
    Ends lifetime.check trace (.ok result) ↔ Alive lifetime trace := by
  rw [RequestLifetime.check, ends_perform_bind]
  constructor
  · rintro ⟨cancelled, _, rfl, ended⟩
    split at ended
    · exact absurd ((ends_fail _ _ _).mp ended).2 (by simp)
    · rename_i active
      rw [Bool.not_eq_true] at active
      subst active
      rw [ends_attempt_bind] at ended
      obtain ⟨inspecting, _, outcome, rfl, inspected, ended⟩ := ended
      cases outcome with
      | error error =>
          simp only [ends_bind_ok] at ended
          obtain ⟨_, _, _, _, _, failed⟩ := ended
          exact absurd ((ends_fail _ _ _).mp failed).2 (by simp)
      | ok _ =>
          obtain ⟨rfl, _⟩ := (ends_pure _ _ _).mp ended
          simp only [RequestLifetime.inspect, ends_bind_ok, ends_deadline_check_ok,
            ends_perform] at inspected
          obtain ⟨_, _, _, rfl, ⟨now, rfl, early⟩, _, _, wall, rfl, ⟨_, rfl, read⟩, ended⟩ :=
            inspected
          obtain rfl := Except.ok.inj read
          split at ended
          · rename_i fresh
            rw [ends_perform_bind] at ended
            obtain ⟨peeked, _, rfl, ended⟩ := ended
            cases peeked with
            | again =>
                obtain ⟨rfl, _⟩ := (ends_pure _ _ _).mp ended
                exact ⟨now, wall, rfl, early, fresh⟩
            | data | closed | failed => exact absurd ((ends_fail _ _ _).mp ended).2 (by simp)
          · exact absurd ((ends_fail _ _ _).mp ended).2 (by simp)
  · rintro ⟨now, wall, rfl, early, fresh⟩
    refine ⟨false, _, rfl, ?_⟩
    rw [if_neg (by simp), ends_attempt_bind]
    refine ⟨_, [], .ok (), (List.append_nil _).symm, ?_, (ends_pure _ _ _).mpr ⟨rfl, rfl⟩⟩
    refine (ends_bind_ok _ _ _ _).mpr
      ⟨[_], _, (), rfl, ends_deadline_check_ok.mpr ⟨now, rfl, early⟩, ?_⟩
    rw [ends_perform_bind]
    refine ⟨wall, _, rfl, ?_⟩
    rw [if_pos fresh, ends_perform_bind]
    exact ⟨.again, [], rfl, (ends_pure _ _ _).mpr ⟨rfl, rfl⟩⟩

/-- Calls that make or start a session. -/
def IsSession : Call Key -> Prop
  | .makeSession | .sessionStart _ _ => True
  | _ => False

theorem not_isSession_of_isFree
    {call : Call Key}
    (free : IsFree call) :
    ¬IsSession call := by
  cases call <;> first | exact id | cases free

theorem ends_runSession
    {request : AuthRequestBody}
    {requireConfirmation : Bool}
    {lifetime : RequestLifetime}
    {rounds : Nat}
    {trace : List (AgentEvent Key)}
    {decision : Decision}
    (ended : Ends (runSession request requireConfirmation lifetime rounds) trace
      (.ok decision)) :
    ∃ between, trace = ⟨.sessionStart request requireConfirmation, ()⟩ ::
      (between ++ [⟨.resultValue, some decision⟩]) ∧
      ∀ event ∈ between, ¬IsSession event.call := by
  rw [runSession, ends_perform_bind] at ended
  obtain ⟨_, _, rfl, ended⟩ := ended
  rw [ends_bind_ok] at ended
  obtain ⟨waiting, _, _, rfl, waited, ended⟩ := ended
  rw [ends_bind_ok] at ended
  obtain ⟨checking, _, _, rfl, checked, ended⟩ := ended
  rw [ends_perform_bind] at ended
  obtain ⟨value, _, rfl, ended⟩ := ended
  cases value with
  | none => exact absurd ((ends_fail _ _ _).mp ended).2 (by simp)
  | some seen =>
      obtain ⟨rfl, equal⟩ := (ends_pure _ _ _).mp ended
      obtain rfl := Except.ok.inj equal
      refine ⟨waiting ++ checking, by simp, fun event member => not_isSession_of_isFree ?_⟩
      rcases List.mem_append.mp member with early | late
      · exact (within_awaitResult _ _).calls waited event early
      · exact (within_lifetime_check _).calls checked event late

/-- An evaluation that returns a decision has started a session for the request and then
seen the decision as the result of that session, the last one that it started. -/
theorem ends_evaluate
    {request : AuthRequestBody}
    {requireConfirmation : Bool}
    {lifetime : RequestLifetime}
    {rounds : Nat}
    {trace : List (AgentEvent Key)}
    {decision : Decision}
    (ended : Ends (evaluate request requireConfirmation lifetime rounds) trace (.ok decision)) :
    ∃ before between after,
      trace = before ++ ⟨.sessionStart request requireConfirmation, ()⟩ ::
        (between ++ ⟨.resultValue, some decision⟩ :: after) ∧
      ∀ event ∈ between ++ after, ¬IsSession event.call := by
  rw [evaluate, ends_bind_ok] at ended
  obtain ⟨awaiting, _, _, rfl, _, ended⟩ := ended
  rw [ends_ensuring_ok] at ended
  obtain ⟨_, signalling, rfl, ended, signalled⟩ := ended
  rw [holdSlot, ends_bind_ok] at ended
  obtain ⟨checking, _, _, rfl, _, ended⟩ := ended
  rw [ends_perform_bind] at ended
  obtain ⟨_, _, rfl, ended⟩ := ended
  rw [ends_ensuring_ok] at ended
  obtain ⟨_, cancelling, rfl, ended, cancelled⟩ := ended
  obtain ⟨between, rfl, quiet⟩ := ends_runSession ended
  refine ⟨awaiting ++ (checking ++ [⟨.makeSession, ()⟩]), between, cancelling ++ signalling,
    by simp, fun event member => ?_⟩
  simp only [List.mem_append] at member
  rcases member with early | cancels | signals
  · exact quiet event early
  · exact not_isSession_of_isFree ((within_perform trivial).calls cancelled event cancels)
  · exact not_isSession_of_isFree ((within_perform trivial).calls signalled event signals)

/-- The response answers the request, within its validity. -/
def Answers
    (digest : Bytes -> Bytes)
    (request : AuthRequestBody)
    (body : AuthResponseBody) : Prop :=
  body.createdAtMs < body.expiresAtMs ∧
    body.expiresAtMs ≤ request.expiresAtMs ∧
    request.sha256 digest = .ok body.requestHash ∧
    body.requestId = request.requestId ∧
    body.nonce = request.nonce ∧
    body.linuxHostId = request.linuxHostId ∧
    body.pamService = request.pamService ∧
    body.pamUser = request.pamUser

theorem toNat_min (left right : UInt64) :
    (min left right).toNat = min left.toNat right.toNat := by
  rw [show min left right = if left ≤ right then left else right from rfl]
  split
  · rename_i less
    exact (min_eq_left (UInt64.le_iff_toNat_le.mp less)).symm
  · rename_i more
    rw [UInt64.le_iff_toNat_le, Nat.not_le] at more
    exact (min_eq_right more.le).symm

/-- The expiry of a response: no addition or subtraction overflows. -/
theorem toNat_responseExpiry
    {now expiresAtMs : UInt64}
    (early : now < expiresAtMs) :
    (now + min 10000 (expiresAtMs - now)).toNat =
      min (now.toNat + 10000) expiresAtMs.toNat := by
  rw [UInt64.lt_iff_toNat_lt] at early
  have bound := expiresAtMs.toNat_lt
  have difference : (expiresAtMs - now).toNat = expiresAtMs.toNat - now.toNat :=
    UInt64.toNat_sub_of_le _ _ (UInt64.le_iff_toNat_le.mpr early.le)
  have ten : (10000 : UInt64).toNat = 10000 := rfl
  rw [UInt64.toNat_add, toNat_min, difference, ten]
  omega

theorem forRequest_answers
    {digest : Bytes -> Bytes}
    {request : AuthRequestBody}
    {decision : Decision}
    {authMethod : AuthMethod}
    {now : UInt64}
    {agentKeyId : String}
    {body : AuthResponseBody}
    (built : AuthResponseBody.forRequest digest request decision authMethod now agentKeyId =
      .ok body) :
    Answers digest request body ∧ body.decision = decision := by
  unfold AuthResponseBody.forRequest at built
  split at built
  · exact absurd built (by simp)
  · rename_i early
    rw [not_not] at early
    obtain ⟨hash, hashed, built⟩ := Protocol.bind_eq_ok.mp built
    obtain rfl := Except.ok.inj built
    have expiry := toNat_responseExpiry early
    rw [UInt64.lt_iff_toNat_lt] at early
    refine ⟨⟨?_, ?_, hashed, rfl, rfl, rfl, rfl, rfl⟩, rfl⟩
    · rw [UInt64.lt_iff_toNat_lt, expiry]
      exact lt_min (Nat.lt_add_of_pos_right (by simp)) early
    · rw [UInt64.le_iff_toNat_le, expiry]
      exact min_le_right _ _

/-! ## The contract of a worker -/

section Contract

variable (platform : Platform Key) (runtime : AgentRuntime Key)
variable (connectionDeadline : Deadline) (rounds : Nat)

/-- The decision on an authorized request. An approval comes from its own evaluation. -/
def Decided
    (request : SignedAuthRequest)
    (decision : Decision)
    (past : List (AgentEvent Key)) : Prop :=
  Authorized platform runtime request past ∧
    (decision = .approved ->
      ∃ before evaluating after lifetime, past = before ++ (evaluating ++ after) ∧
        Authorized platform runtime request before ∧
        Ends (evaluate request.body runtime.requireConfirmation lifetime rounds) evaluating
          (.ok .approved) ∧
        ∀ event ∈ after, ¬IsSession event.call)

/-- The response that a worker signs. -/
def MaySign (past : List (AgentEvent Key)) (bytes : Bytes) : Prop :=
  ∃ request decision now body, Decided platform runtime rounds request decision past ∧
    AuthResponseBody.forRequest platform.digest request.body decision (authMethodOf decision)
      now runtime.agentKeyId = .ok body ∧
    body.canonicalBytes = .ok bytes

/-- The bytes that the peer has been sent. -/
def sent (past : List (AgentEvent Key)) : Bytes :=
  past.flatMap fun
    | ⟨.send bytes, .sent count⟩ => bytes.take count
    | _ => []

/-- The worker has a response, and the last check of the request's lifetime passed. -/
def Ready
    (request : SignedAuthRequest)
    (response : SignedAuthResponse)
    (past : List (AgentEvent Key)) : Prop :=
  Decided platform runtime rounds request response.body.decision past ∧
    Answers platform.digest request.body response.body ∧
    ∃ lifetime before starting between check after,
      past = before ++ (starting ++ (between ++ (check ++ after))) ∧
      Started connectionDeadline request.body.expiresAtMs lifetime starting ∧
      Alive lifetime check ∧
      ∀ event ∈ after, event.call ≠ .peek

/-- The bytes that a worker sends: what is left of the frame of its response. -/
def MaySend (past : List (AgentEvent Key)) (bytes : Bytes) : Prop :=
  ∃ request response payload,
    Ready platform runtime connectionDeadline rounds request response past ∧
    platform.responseToJson response = some payload ∧
    sent past ++ bytes = lengthPrefixed 4 payload

/-- What a worker may do, in view of what it has done. -/
def serving : Contract (Call Key) Call.Answer where
  relies _ _ := True
  allows past
    | .limiterAllow body => ∃ request, Authorized platform runtime request past ∧
        request.body = body
    | .makeSession => ∃ request, Authorized platform runtime request past
    | .sessionStart body _ => ∃ request, Authorized platform runtime request past ∧
        request.body = body
    | .sign bytes => MaySign platform runtime rounds past bytes
    | .send bytes => MaySend platform runtime connectionDeadline rounds past bytes
    | _ => True
  givesUp _ := True

end Contract

section Serving

variable {platform : Platform Key} {runtime : AgentRuntime Key}
variable {connectionDeadline : Deadline} {rounds : Nat}
variable {request : SignedAuthRequest} {past : List (AgentEvent Key)}

/-- Free calls are always allowed. -/
theorem free_meets
    {α : Type}
    {routine : Routine Key α}
    (within : routine.Within IsFree) :
    routine.Meets (serving platform runtime connectionDeadline rounds) past
      fun later result => ∃ trace, later = past ++ trace ∧ Ends routine trace result := by
  refine within.meets (fun past call free => ?_) fun _ => trivial
  cases call <;> trivial

@[simp] theorem sent_append (first second : List (AgentEvent Key)) :
    sent (first ++ second) = sent first ++ sent second := by
  simp [sent]

theorem sent_silent
    {trace : List (AgentEvent Key)}
    (silent : ∀ event ∈ trace, ∀ bytes, event.call ≠ .send bytes) :
    sent trace = [] := by
  unfold sent
  rw [List.flatMap_eq_nil_iff]
  rintro ⟨call, answer⟩ member
  have quiet := silent _ member
  cases call <;> first | rfl | exact absurd rfl (quiet _)

theorem sent_free
    {trace : List (AgentEvent Key)}
    (free : ∀ event ∈ trace, IsFree event.call) :
    sent trace = [] := by
  refine sent_silent fun event member bytes sends => ?_
  have isFree := free event member
  rw [sends] at isFree
  exact isFree

theorem Decided.append
    {decision : Decision}
    (decided : Decided platform runtime rounds request decision past)
    {further : List (AgentEvent Key)}
    (noSession : ∀ event ∈ further, ¬IsSession event.call) :
    Decided platform runtime rounds request decision (past ++ further) := by
  refine ⟨decided.1.append further, fun approved => ?_⟩
  obtain ⟨before, evaluating, after, lifetime, rfl, authorized, ended, quiet⟩ :=
    decided.2 approved
  refine ⟨before, evaluating, after ++ further, lifetime, by simp, authorized, ended, ?_⟩
  intro event member
  rcases List.mem_append.mp member with early | late
  · exact quiet event early
  · exact noSession event late

theorem Ready.append
    {response : SignedAuthResponse}
    (ready : Ready platform runtime connectionDeadline rounds request response past)
    {further : List (AgentEvent Key)}
    (unchecked : ∀ event ∈ further, event.call ≠ .peek)
    (noSession : ∀ event ∈ further, ¬IsSession event.call) :
    Ready platform runtime connectionDeadline rounds request response (past ++ further) := by
  obtain ⟨decided, answers, lifetime, before, starting, between, check, after, rfl, started, alive,
    quiet⟩ := ready
  refine ⟨decided.append noSession, answers, lifetime, before, starting, between, check,
    after ++ further, by simp, started, alive, fun event member => ?_⟩
  rcases List.mem_append.mp member with early | late
  · exact quiet event early
  · exact unchecked event late

/-- What is left of the frame is sent piece by piece. -/
theorem meets_writeLoop
    {response : SignedAuthResponse}
    {payload data : Bytes}
    {deadline : Deadline}
    {waitRounds left : Nat}
    (ready : Ready platform runtime connectionDeadline rounds request response past)
    (encoded : platform.responseToJson response = some payload)
    (rest : sent past ++ data = lengthPrefixed 4 payload) :
    (writeLoop platform deadline waitRounds left data).Meets
      (serving platform runtime connectionDeadline rounds) past fun _ _ => True := by
  induction left generalizing past data with
  | zero =>
      unfold writeLoop
      split <;> trivial
  | succ left inductionHypothesis =>
      unfold writeLoop
      split
      · trivial
      · have waits := within_waitForSocket platform .output deadline waitRounds
        refine Meets.bind (free_meets (waits.mono isFree_of_isTiming)) ?_ fun _ _ _ => trivial
        rintro later _ ⟨waiting, rfl, waited⟩
        have timing := waits.calls waited
        have stillReady : Ready platform runtime connectionDeadline rounds request response
            (past ++ waiting) := by
          refine ready.append (fun event member peeks => ?_)
            fun event member => not_isSession_of_isFree (isFree_of_isTiming _ (timing event member))
          have timed := timing event member
          rw [peeks] at timed
          exact timed
        have stillRest : sent (past ++ waiting) ++ data = lengthPrefixed 4 payload := by
          rw [sent_append, sent_free fun event member => isFree_of_isTiming _ (timing event member),
            List.append_nil]
          exact rest
        rw [meets_perform_bind]
        refine ⟨⟨request, response, payload, stillReady, encoded, stillRest⟩, fun answer _ => ?_⟩
        have onwards (answer : SendResult data) :
            Ready platform runtime connectionDeadline rounds request response
              (past ++ waiting ++ [⟨.send data, answer⟩]) :=
          stillReady.append (by simp) (by simp [IsSession])
        cases answer with
        | again =>
            refine inductionHypothesis (onwards _) ?_
            simpa [sent] using stillRest
        | failed code => trivial
        | sent count =>
            refine inductionHypothesis (onwards _) ?_
            rw [sent_append, List.append_assoc, ← stillRest]
            simp [sent]

theorem meets_runSession
    {lifetime : RequestLifetime}
    {left : Nat}
    (authorized : Authorized platform runtime request past) :
    (runSession request.body runtime.requireConfirmation lifetime left).Meets
      (serving platform runtime connectionDeadline rounds) past fun _ _ => True := by
  unfold runSession
  rw [meets_perform_bind]
  refine ⟨⟨request, authorized, rfl⟩, fun _ _ => ?_⟩
  refine Meets.mono (free_meets ?_) fun _ _ _ => trivial
  refine .bind (within_awaitResult _ _) fun _ => .bind (within_lifetime_check _) fun _ =>
    .bind (within_perform trivial) fun value => ?_
  cases value <;> trivial

theorem meets_holdSlot
    {lifetime : RequestLifetime}
    {left : Nat}
    (authorized : Authorized platform runtime request past) :
    (holdSlot request.body runtime.requireConfirmation lifetime left).Meets
      (serving platform runtime connectionDeadline rounds) past fun _ _ => True := by
  refine Meets.bind (free_meets (within_lifetime_check _)) ?_ fun _ _ _ => trivial
  rintro _ _ ⟨checking, rfl, _⟩
  rw [meets_perform_bind]
  refine ⟨⟨request, authorized.append _⟩, fun _ _ => ?_⟩
  exact Meets.ensuring (meets_runSession ((authorized.append _).append _))
    fun _ _ _ => ⟨trivial, fun _ _ => trivial⟩

/-- An authorized request may be evaluated. -/
theorem meets_evaluate
    {lifetime : RequestLifetime}
    {left : Nat}
    (authorized : Authorized platform runtime request past) :
    (evaluate request.body runtime.requireConfirmation lifetime left).Meets
      (serving platform runtime connectionDeadline rounds) past fun _ _ => True := by
  refine Meets.bind (free_meets (within_awaitSlot _ _)) ?_ fun _ _ _ => trivial
  rintro _ _ ⟨awaiting, rfl, _⟩
  exact Meets.ensuring (meets_holdSlot (authorized.append _))
    fun _ _ _ => ⟨trivial, fun _ _ => trivial⟩

/-- The decision on an authorized request is taken by its own evaluation. -/
theorem meets_authenticate
    {lifetime : RequestLifetime}
    (authorized : Authorized platform runtime request past) :
    (authenticate runtime request.body lifetime rounds).Meets
      (serving platform runtime connectionDeadline rounds) past
      fun later result => ∀ decision, result = .ok decision ->
        Decided platform runtime rounds request decision later := by
  unfold authenticate
  rw [meets_perform_bind]
  refine ⟨⟨request, authorized, rfl⟩, fun allowed _ => ?_⟩
  have stillAuthorized := authorized.append [⟨.limiterAllow request.body, allowed⟩]
  split
  · refine (meets_evaluate stillAuthorized).ended.mono ?_
    rintro _ _ ⟨evaluating, rfl, ended, _⟩ decision rfl
    refine ⟨stillAuthorized.append _, ?_⟩
    rintro rfl
    exact ⟨_, evaluating, [], lifetime, by simp, stillAuthorized, ended, by simp⟩
  · rintro decision ⟨⟩
    exact ⟨stillAuthorized, by rintro ⟨⟩⟩

/-- A decision is signed as the response to its request. -/
theorem meets_signResponse
    {decision : Decision}
    (decided : Decided platform runtime rounds request decision past) :
    (signResponse platform runtime request.body decision).Meets
      (serving platform runtime connectionDeadline rounds) past
      fun _ result => ∀ response, result = .ok response ->
        Answers platform.digest request.body response.body ∧
          response.body.decision = decision := by
  unfold signResponse
  rw [meets_perform_bind]
  refine ⟨trivial, fun now _ => ?_⟩
  have stillDecided : Decided platform runtime rounds request decision
      (past ++ [⟨.wallTimeMs, now⟩]) :=
    decided.append (by simp [IsSession])
  cases built : AuthResponseBody.forRequest platform.digest request.body decision
      (authMethodOf decision) now runtime.agentKeyId with
  | error error => rintro response ⟨⟩
  | ok body =>
      cases encoded : body.canonicalBytes with
      | error error =>
          change Meets _ (liftExcept body.canonicalBytes >>= _) _ _
          rw [encoded]
          rintro response ⟨⟩
      | ok bytes =>
          change Meets _ (liftExcept body.canonicalBytes >>= _) _ _
          rw [encoded]
          refine ⟨⟨request, decision, now, body, stillDecided, built, encoded⟩, fun signature _ => ?_⟩
          cases signature with
          | none => rintro response ⟨⟩
          | some signature =>
              rintro response ⟨⟩
              exact forRequest_answers built

/-- Calls other than sending. -/
def IsSilent : Call Key -> Prop
  | .send _ => False
  | _ => True

theorem isSilent_of_isFree
    (call : Call Key)
    (free : IsFree call) :
    IsSilent call := by
  cases call <;> trivial

theorem sent_within
    {α : Type}
    {routine rest : Routine Key α}
    {trace : List (AgentEvent Key)}
    (within : routine.Within IsSilent)
    (steps : Steps routine trace rest) :
    sent trace = [] := by
  refine sent_silent fun event member bytes sends => ?_
  have silent := within.calls steps event member
  rw [sends] at silent
  exact silent

theorem within_authenticate
    (runtime : AgentRuntime Key)
    (request : AuthRequestBody)
    (lifetime : RequestLifetime)
    (rounds : Nat) :
    (authenticate runtime request lifetime rounds).Within IsSilent := by
  refine .bind (within_perform trivial) fun allowed => ?_
  split
  · refine .bind ((within_awaitSlot _ _).mono isSilent_of_isFree) fun _ =>
      .ensuring (.bind ((within_lifetime_check _).mono isSilent_of_isFree) fun _ =>
        .bind (within_perform trivial) fun _ => .ensuring ?_ (within_perform trivial))
          (within_perform trivial)
    refine .bind (within_perform trivial) fun _ =>
      .bind ((within_awaitResult _ _).mono isSilent_of_isFree) fun _ =>
        .bind ((within_lifetime_check _).mono isSilent_of_isFree) fun _ =>
          .bind (within_perform trivial) fun value => ?_
    cases value <;> trivial
  · trivial

theorem within_signResponse
    {permitted : Call Key -> Prop}
    (clock : permitted .wallTimeMs)
    (signs : ∀ bytes, permitted (.sign bytes))
    (platform : Platform Key)
    (runtime : AgentRuntime Key)
    (request : AuthRequestBody)
    (decision : Decision) :
    (signResponse platform runtime request decision).Within permitted := by
  refine .bind (within_perform clock) fun now => .bind (within_done _) fun body =>
    .bind (within_done _) fun bytes => .bind (within_perform (signs _)) fun signature => ?_
  cases signature <;> trivial

/-- A worker that has a lifetime for an authorized request keeps the contract. -/
theorem meets_respond
    {lifetime : RequestLifetime}
    {before starting : List (AgentEvent Key)}
    (authorized : Authorized platform runtime request (before ++ starting))
    (started : Started connectionDeadline request.body.expiresAtMs lifetime starting)
    (unsent : sent (before ++ starting) = []) :
    (respond platform runtime request.body lifetime rounds).Meets
      (serving platform runtime connectionDeadline rounds) (before ++ starting)
      fun _ _ => True := by
  have checkQuiet {trace : List (AgentEvent Key)} {result : Except Failure Unit}
      (ended : Ends lifetime.check trace result) : ∀ event ∈ trace, ¬IsSession event.call :=
    fun event member =>
      not_isSession_of_isFree ((within_lifetime_check lifetime).calls ended event member)
  have checkSilent {trace : List (AgentEvent Key)} {result : Except Failure Unit}
      (ended : Ends lifetime.check trace result) : sent trace = [] :=
    sent_within ((within_lifetime_check lifetime).mono isSilent_of_isFree) ended
  refine Meets.bind (free_meets (within_lifetime_check _)) ?_ fun _ _ _ => trivial
  rintro _ _ ⟨firstCheck, rfl, checked⟩
  refine Meets.bind (meets_authenticate (authorized.append _)).ended ?_ fun _ _ _ => trivial
  rintro _ decision ⟨authenticating, rfl, authenticated, decided⟩
  refine Meets.bind (free_meets (within_lifetime_check _)) ?_ fun _ _ _ => trivial
  rintro _ _ ⟨secondCheck, rfl, checkedAgain⟩
  have stillDecided := (decided decision rfl).append (checkQuiet checkedAgain)
  refine Meets.bind (meets_signResponse stillDecided).ended ?_ fun _ _ _ => trivial
  rintro _ response ⟨signing, rfl, signed, answered⟩
  obtain ⟨answers, rfl⟩ := answered response rfl
  have signsQuietly : (signResponse platform runtime request.body
      response.body.decision).Within fun call => ¬IsSession call :=
    within_signResponse id (fun _ => id) _ _ _ _
  refine Meets.bind (free_meets (within_lifetime_check _)) ?_ fun _ _ _ => trivial
  rintro _ _ ⟨lastCheck, rfl, checkedLast⟩
  unfold writeJSONFrame
  split
  · trivial
  · rename_i payload encoded
    split
    · trivial
    · have ready : Ready platform runtime connectionDeadline rounds request response
          (before ++ starting ++ firstCheck ++ authenticating ++ secondCheck ++ signing ++
            lastCheck) :=
        ⟨(stillDecided.append (signsQuietly.calls signed)).append (checkQuiet checkedLast), answers, lifetime,
          before, starting, firstCheck ++ (authenticating ++ (secondCheck ++ signing)), lastCheck,
          [], by simp, started, ends_lifetime_check_ok.mp checkedLast, by simp⟩
      refine meets_writeLoop ready encoded ?_
      simp only [sent_append, unsent, checkSilent checked, checkSilent checkedAgain,
        checkSilent checkedLast, sent_within (within_authenticate _ _ _ _) authenticated,
        sent_within (within_signResponse trivial (fun _ => trivial) _ _ _ _) signed,
        List.append_nil, List.nil_append]

/-- Every worker keeps the contract. -/
theorem meets_handleServeRequest :
    (handleServeRequest platform runtime connectionDeadline rounds).Meets
      (serving platform runtime connectionDeadline rounds) [] fun _ _ => True := by
  refine Meets.bind (free_meets (within_receiveRequest _ _ _ _)) ?_ fun _ _ _ => trivial
  rintro _ request ⟨receiving, rfl, received⟩
  refine Meets.bind (free_meets (within_lifetime_start _ _)) ?_ fun _ _ _ => trivial
  rintro _ lifetime ⟨starting, rfl, started⟩
  refine Meets.ensuring (meets_respond ((ends_receiveRequest received).append _)
    (ends_lifetime_start started) ?_) fun _ _ _ => ⟨trivial, fun _ _ => trivial⟩
  rw [sent_append,
    sent_within ((within_receiveRequest _ _ _ _).mono isSilent_of_isFree) received,
    sent_within ((within_lifetime_start _ _).mono isSilent_of_isFree) started]
  rfl

/-- What the contract says about calls that act for a request. -/
theorem authorized_of_allows
    {call : Call Key}
    (allowed : (serving platform runtime connectionDeadline rounds).allows past call)
    (guarded : IsSession call ∨ ∃ body, call = .limiterAllow body) :
    ∃ request, Authorized platform runtime request past ∧
      ∀ body, (call = .limiterAllow body ∨ ∃ confirmation, call = .sessionStart body confirmation) ->
        request.body = body := by
  cases call with
  | limiterAllow body =>
      obtain ⟨request, authorized, rfl⟩ := allowed
      refine ⟨request, authorized, ?_⟩
      rintro body (equal | ⟨_, equal⟩)
      · exact Call.limiterAllow.inj equal
      · simp at equal
  | makeSession =>
      obtain ⟨request, authorized⟩ := allowed
      refine ⟨request, authorized, ?_⟩
      rintro body (equal | ⟨_, equal⟩) <;> simp at equal
  | sessionStart body confirmation =>
      obtain ⟨request, authorized, rfl⟩ := allowed
      refine ⟨request, authorized, ?_⟩
      rintro body (equal | ⟨_, equal⟩)
      · simp at equal
      · exact (Call.sessionStart.inj equal).1
  | _ =>
      rcases guarded with ⟨⟨⟩⟩ | ⟨_, ⟨⟩⟩

end Serving

end Agent
end MacosAuth
