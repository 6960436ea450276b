import MacosAuth.EndToEnd.Acceptance
import MacosAuth.Agent.Deadlines

/-!
# Prompts that nobody answers

The helper gives up at a deadline of its monotonic clock. The agent gives up when the request
expires on its wall clock, or fifteen seconds after it has accepted the connection, and then
closes it. The helper falls back to the password only if it is the first to give up: a
connection that is closed before the deadline is a protocol error.

Every call of the two programs has a time. Calls that wait may take any time; the other ones are
answered within a bounded latency.
-/

namespace MacosAuth
namespace EndToEnd

open Codec
open Effect Effect.Program
open Helper (Crates HelperEvent RequestArgs Prepared Stop TransportError IoError)
open Agent (AgentEvent Platform AgentRuntime RequestLifetime Deadline Failure)

/-! ## Times -/

/-- What the clocks of both machines show at the time zero, in nanoseconds. They all run at the
same rate. -/
structure Clocks where
  /-- The monotonic clock of the helper. -/
  helperUptime : Nat
  helperWall : Nat
  agentUptime : Nat
  agentWall : Nat

/-- A clock in milliseconds. -/
def millisecondsAt (clock time : Nat) : Nat :=
  (clock + time) / 1000000

/-- The time at which each call of a trace is answered. -/
structure Timeline where
  time : Nat -> Nat
  monotone : Monotone time

variable (clocks : Clocks) (timeline : Timeline)

/-- No more than the latency has passed since the last answer. -/
def Timeline.Prompt (latency : Nat) (past : List HelperEvent) : Prop :=
  timeline.time past.length ≤ timeline.time (past.length - 1) + latency

/-! ## The helper waits -/

/-- What the helper can rely on as long as no response has been sent. The socket neither fails nor
ends before the agent has closed the connection. -/
def HelperServed (latency : Nat) (closed : Nat -> Prop) (past : List HelperEvent) :
    HelperEvent -> Prop
  | ⟨.wallClock, reading⟩ => ∃ milliseconds, reading = some milliseconds ∧
      milliseconds.toNat = millisecondsAt clocks.helperWall (timeline.time past.length)
  | ⟨.instant, now⟩ => now = clocks.helperUptime + timeline.time past.length ∧
      timeline.Prompt latency past
  | ⟨.poll _ _, result⟩ => result = .ready false ∨ result = .timedOut ∨ result = .interrupted
  | ⟨.recv _, result⟩ => timeline.Prompt latency past ∧
      (result = .wouldBlock ∨ result = .interrupted ∨ closed (timeline.time past.length))
  | ⟨.send _, result⟩ => timeline.Prompt latency past ∧
      (result = .wouldBlock ∨ result = .interrupted ∨
        (∃ count, result = .transferred count ∧ 0 < count.val) ∨
        closed (timeline.time past.length))
  | _ => True

/-- The helper and its connection. -/
def unanswered
    (latency : Nat)
    (closed : Nat -> Prop) :
    Contract Helper.Call Helper.Call.Answer where
  relies := HelperServed clocks timeline latency closed
  allows _ _ := True
  givesUp _ := True

section Waiting

variable {clocks : Clocks} {timeline : Timeline} {latency deadline rounds : Nat}
variable {closed : Nat -> Prop} {past : List HelperEvent}

/-- The agent does not close the connection before the helper has seen its deadline. -/
def ClosesLate (clocks : Clocks) (latency deadline : Nat) (closed : Nat -> Prop) : Prop :=
  ∀ time, closed time -> deadline + latency ≤ clocks.helperUptime + time

/-- Waiting for the socket only ends early when it is worth a try. -/
theorem unanswered_wait (interest : Helper.Interest) (left : Nat) :
    (Helper.wait interest deadline left).Meets (unanswered clocks timeline latency closed) past
      fun _ result => result = .ok () ∨ result = .error .timedOut := by
  induction left generalizing past with
  | zero => trivial
  | succ left inductionHypothesis =>
      unfold Helper.wait
      rw [meets_perform_bind]
      refine ⟨trivial, fun now _ => ?_⟩
      split
      · exact .inr rfl
      · rw [meets_perform_bind]
        refine ⟨trivial, fun polled served => ?_⟩
        rcases served with rfl | rfl | rfl
        · exact .inl rfl
        · exact inductionHypothesis
        · exact inductionHypothesis

/-- A transfer is tried right after a reading of the clock before the deadline, so the agent
has not closed the connection by then. -/
theorem not_closed_of_prompt
    {now : Nat}
    (late : ClosesLate clocks latency deadline closed)
    (early : ¬deadline ≤ now)
    (served : HelperServed clocks timeline latency closed past ⟨.instant, now⟩)
    (prompt : timeline.Prompt latency (past ++ [⟨.instant, now⟩])) :
    ¬closed (timeline.time (past ++ [(⟨.instant, now⟩ : HelperEvent)]).length) := by
  intro isClosed
  have bound := late _ isClosed
  have reading : now = clocks.helperUptime + timeline.time past.length := served.1
  unfold Timeline.Prompt at prompt
  simp only [List.length_append, List.length_singleton, Nat.add_sub_cancel] at prompt bound
  omega

theorem unanswered_recv
    (late : ClosesLate clocks latency deadline closed)
    (limit left : Nat) :
    (Helper.transfer .input deadline rounds (perform (Helper.Call.recv limit)) left).Meets
      (unanswered clocks timeline latency closed) past
      fun _ result => result = .error .timedOut := by
  induction left generalizing past with
  | zero => trivial
  | succ left inductionHypothesis =>
      unfold Helper.transfer
      rw [meets_perform_bind]
      refine ⟨trivial, fun now served => ?_⟩
      split
      · exact rfl
      · rename_i early
        rw [meets_perform_bind]
        refine ⟨trivial, fun result received => ?_⟩
        obtain ⟨prompt, outcome⟩ := received
        rcases outcome with rfl | rfl | isClosed
        · refine Meets.bind (unanswered_wait .input rounds) ?_ ?_
          · exact fun _ _ _ => inductionHypothesis
          · intro _ error failed
            simpa using failed
        · exact inductionHypothesis
        · exact absurd isClosed (not_closed_of_prompt late early served prompt)

theorem unanswered_send
    (late : ClosesLate clocks latency deadline closed)
    (bytes : Bytes)
    (left : Nat) :
    (Helper.transfer .output deadline rounds (perform (Helper.Call.send bytes)) left).Meets
      (unanswered clocks timeline latency closed) past
      fun _ result => result = .error .timedOut ∨ ∃ count, result = .ok count ∧ 0 < count.val := by
  induction left generalizing past with
  | zero => trivial
  | succ left inductionHypothesis =>
      unfold Helper.transfer
      rw [meets_perform_bind]
      refine ⟨trivial, fun now served => ?_⟩
      split
      · exact .inl rfl
      · rename_i early
        rw [meets_perform_bind]
        refine ⟨trivial, fun result sent => ?_⟩
        obtain ⟨prompt, outcome⟩ := sent
        rcases outcome with rfl | rfl | ⟨count, rfl, positive⟩ | isClosed
        · refine Meets.bind (unanswered_wait .output rounds) ?_ ?_
          · exact fun _ _ _ => inductionHypothesis
          · intro _ error failed
            simpa using failed
        · exact inductionHypothesis
        · exact .inr ⟨count, rfl, positive⟩
        · exact absurd isClosed (not_closed_of_prompt late early served prompt)

theorem unanswered_writeAll
    (late : ClosesLate clocks latency deadline closed)
    (left : Nat)
    (bytes : Bytes) :
    (Helper.writeAll (Helper.writeStream deadline rounds) left bytes).Meets
      (unanswered clocks timeline latency closed) past
      fun _ result => result = .ok () ∨ result = .error .timedOut := by
  induction left generalizing past bytes with
  | zero => exact .inl rfl
  | succ left inductionHypothesis =>
      unfold Helper.writeAll
      split
      · exact .inl rfl
      · refine Meets.bind (unanswered_send late bytes rounds) ?_ ?_
        · intro later count sent
          have positive : 0 < count.val := by simpa using sent
          rw [if_neg (Nat.pos_iff_ne_zero.mp positive)]
          exact inductionHypothesis _
        · intro later error failed
          exact .inr (by simpa using failed)

/-- The request is sent, or the deadline passes. -/
theorem unanswered_writeFrame
    {payload : Bytes}
    (late : ClosesLate clocks latency deadline closed)
    (fits : payload.length ≤ Helper.maxFrameLen) :
    (Helper.writeFrame deadline rounds payload).Meets (unanswered clocks timeline latency closed)
      past fun _ result => result = .ok () ∨ result = .error .timeout := by
  unfold Helper.writeFrame
  rw [if_neg (Nat.not_lt.mpr fits)]
  refine Meets.mapError_bind (unanswered_writeAll late _ _) ?_ ?_
  · intro later _ _
    rw [meets_mapError]
    refine (unanswered_writeAll late _ _).mono fun final result written => ?_
    rcases written with rfl | rfl
    · exact .inl rfl
    · exact .inr rfl
  · intro later error failed
    obtain rfl : error = .timedOut := by simpa using failed
    exact .inr rfl

/-- No response is read before the deadline passes. -/
theorem unanswered_readResponse
    (crates : Crates)
    (late : ClosesLate clocks latency deadline closed) :
    (Helper.readResponse crates deadline rounds).Meets (unanswered clocks timeline latency closed)
      past fun _ result => result = .error .timeout := by
  have reads : (Helper.readExact deadline rounds 4 4).Meets
      (unanswered clocks timeline latency closed) past
      fun _ result => result = .error .timedOut := by
    unfold Helper.readExact
    rw [if_neg (by decide)]
    refine Meets.bind (unanswered_recv late 4 rounds) ?_ ?_
    · intro later chunk impossible
      cases impossible
    · intro later error failed
      obtain rfl := Except.error.inj failed
      exact rfl
  have frames : (Helper.readFrame deadline rounds).Meets
      (unanswered clocks timeline latency closed) past
      fun _ result => result = .error .timeout := by
    refine Meets.mapError_bind reads ?_ ?_
    · intro later bytes impossible
      cases impossible
    · intro later error failed
      obtain rfl := Except.error.inj failed
      exact rfl
  refine Meets.bind frames ?_ ?_
  · intro later payload impossible
    cases impossible
  · intro later error failed
    obtain rfl := Except.error.inj failed
    exact rfl

/-- Any program keeps a contract that allows everything. -/
theorem unanswered_any
    {ε α : Type}
    (program : Helper.Routine ε α) :
    program.Meets (unanswered clocks timeline latency closed) past fun _ _ => True := by
  induction program generalizing past with
  | done result => trivial
  | call request next inductionHypothesis =>
      exact ⟨trivial, fun answer _ => inductionHypothesis answer⟩
  | exhausted => trivial

/-- The exchange ends with the exit code of an agent that is unavailable. -/
theorem unanswered_exchange
    {crates : Crates}
    {prepared : Prepared}
    (late : ClosesLate clocks latency prepared.deadline closed)
    (fits : (crates.requestToJson prepared.request).length ≤ Helper.maxFrameLen) :
    (Helper.exchange crates rounds prepared).Meets (unanswered clocks timeline latency closed) past
      fun _ result => result = .error (.exit Helper.exitUnavailable) := by
  refine Meets.mapError_bind (unanswered_any _) ?_ fun _ _ _ => rfl
  intro connected _ _
  refine Meets.mapError_bind (unanswered_writeFrame late fits) ?_ ?_
  · intro written _ _
    rw [meets_mapError]
    refine (unanswered_readResponse crates late).mono fun final result failed => ?_
    rw [failed]
    rfl
  · intro written error failed
    obtain rfl : error = .timeout := by simpa using failed
    exact rfl

end Waiting

/-! ## The agent gives up -/

/-- What the clocks of the agent show, and that its peer neither sends more nor goes away. -/
def AgentReads (time : Nat) : AgentEvent Bytes -> Prop
  | ⟨.uptimeNs, now⟩ => now.toNat = clocks.agentUptime + time
  | ⟨.wallTimeMs, now⟩ => now.toNat = millisecondsAt clocks.agentWall time
  | ⟨.peek, result⟩ => result = .again
  | _ => True

/-- The session looks at the lifetime of its request as well. It cancels the lifetime if it finds
that this is over. -/
def SessionGaveUp (lifetime : RequestLifetime) (time : Nat) : Prop :=
  ∃ inspection error, Ends lifetime.inspect inspection (.error error) ∧
    ∀ event ∈ inspection, ∃ earlier ≤ time, AgentReads clocks earlier event

/-- What the worker of the request can rely on: nobody answers the prompt. -/
def AgentServed (lifetime : RequestLifetime) (past : List (AgentEvent Bytes)) :
    AgentEvent Bytes -> Prop
  | ⟨.limiterAllow _, allowed⟩ => allowed = true
  | ⟨.resultValue, value⟩ => value = none
  | ⟨.lifetimeCancelled, cancelled⟩ => cancelled = true ->
      (⟨.cancelLifetime, ()⟩ : AgentEvent Bytes) ∈ past ∨
        SessionGaveUp clocks lifetime (timeline.time past.length)
  | event => AgentReads clocks (timeline.time past.length) event

/-- The agent closes the connection at some time or later. -/
def closesAfter (lifetime : RequestLifetime) (bound : Nat) :
    Contract (Agent.Call Bytes) Agent.Call.Answer where
  relies := AgentServed clocks timeline lifetime
  allows past
    | .closeHandle => bound ≤ timeline.time past.length
    | _ => True
  givesUp _ := True

/-- The lifetime is not over before some time. -/
structure LastsUntil (lifetime : RequestLifetime) (bound : Nat) : Prop where
  uptime : ∀ time, lifetime.deadline.uptimeNs.toNat ≤ clocks.agentUptime + time -> bound ≤ time
  wall : ∀ time, lifetime.expiresAtMs.toNat ≤ millisecondsAt clocks.agentWall time -> bound ≤ time

section GivingUp

variable {clocks : Clocks} {timeline : Timeline} {lifetime : RequestLifetime} {bound rounds : Nat}
variable {past : List (AgentEvent Bytes)}

/-- The lifetime was cancelled only after it was over. -/
def CancelledLate (timeline : Timeline) (bound : Nat) (past : List (AgentEvent Bytes)) : Prop :=
  (⟨.cancelLifetime, ()⟩ : AgentEvent Bytes) ∈ past -> bound ≤ timeline.time past.length

theorem CancelledLate.snoc
    {event : AgentEvent Bytes}
    (cancelledLate : CancelledLate timeline bound past)
    (other : event.call ≠ .cancelLifetime) :
    CancelledLate timeline bound (past ++ [event]) := by
  intro member
  have earlier : (⟨.cancelLifetime, ()⟩ : AgentEvent Bytes) ∈ past := by
    rcases List.mem_append.mp member with member | member
    · exact member
    · exact absurd (congrArg Event.call (List.mem_singleton.mp member).symm) other
  refine (cancelledLate earlier).trans (timeline.monotone ?_)
  simp

/-- A part of the worker that may only fail when the lifetime is over. -/
def Lasts (timeline : Timeline) (bound : Nat) {α : Type} (later : List (AgentEvent Bytes))
    (result : Except Failure α) : Prop :=
  CancelledLate timeline bound later ∧
    ∀ error, result = .error error -> bound ≤ timeline.time later.length

/-- A part of the worker that can only end when the lifetime is over. -/
def Fails (timeline : Timeline) (bound : Nat) {α : Type} (later : List (AgentEvent Bytes))
    (result : Except Failure α) : Prop :=
  bound ≤ timeline.time later.length ∧ ∃ error, result = .error error

theorem time_le_snoc (event : AgentEvent Bytes) :
    timeline.time past.length ≤ timeline.time (past ++ [event]).length :=
  timeline.monotone (by simp)

/-- A part of an inspection, with answers that were given by some time. -/
def inspecting (clocks : Clocks) (time : Nat) : Contract (Agent.Call Bytes) Agent.Call.Answer where
  relies _ event := ∃ earlier ≤ time, AgentReads clocks earlier event
  allows _ _ := True
  givesUp _ := True

/-- An inspection that fails comes too late. -/
def FailsLate (bound time : Nat) {α : Type} (_ : List (AgentEvent Bytes))
    (result : Except Failure α) : Prop :=
  ∀ error, result = .error error -> bound ≤ time

theorem failsLate_deadline_check
    {time : Nat}
    (lasts : LastsUntil clocks lifetime bound) :
    lifetime.deadline.check.Meets (inspecting clocks time) past (FailsLate bound time) := by
  refine ⟨trivial, fun now read => ?_⟩
  change (if 0 < lifetime.deadline.remainingAt now then pure () else Agent.raise .timeout :
    Agent.Routine Bytes Unit).Meets (inspecting clocks time) (past ++ [⟨.uptimeNs, now⟩])
      (FailsLate bound time)
  split
  · intro error impossible
    cases impossible
  · rename_i passed
    intro error _
    obtain ⟨earlier, inTime, reading⟩ := read
    rw [Agent.remainingAt_pos_iff, UInt64.not_lt, UInt64.le_iff_toNat_le, reading] at passed
    exact (lasts.uptime earlier passed).trans inTime

theorem failsLate_inspect
    {time : Nat}
    (lasts : LastsUntil clocks lifetime bound) :
    lifetime.inspect.Meets (inspecting clocks time) past (FailsLate bound time) := by
  refine Meets.bind (failsLate_deadline_check lasts) ?_ ?_
  · intro checked _ _
    rw [meets_perform_bind]
    refine ⟨trivial, fun now read => ?_⟩
    split
    · rw [meets_perform_bind]
      refine ⟨trivial, fun peeked alone => ?_⟩
      obtain ⟨_, _, rfl⟩ := alone
      intro error impossible
      cases impossible
    · rename_i passed
      intro error _
      obtain ⟨earlier, inTime, reading⟩ := read
      rw [UInt64.not_lt, UInt64.le_iff_toNat_le, reading] at passed
      exact (lasts.wall earlier passed).trans inTime
  · intro checked error failed _ _
    exact failed error rfl

/-- An inspection of the lifetime fails only when the lifetime is passed. -/
theorem bound_le_of_inspect
    {inspection : List (AgentEvent Bytes)}
    {error : Failure}
    {time : Nat}
    (lasts : LastsUntil clocks lifetime bound)
    (fails : Ends lifetime.inspect inspection (.error error))
    (served : ∀ event ∈ inspection, ∃ earlier ≤ time, AgentReads clocks earlier event) :
    bound ≤ time :=
  (failsLate_inspect lasts).outcome fails
    (fun before event after split => served event (by simp [split])) error rfl

/-- The calls of an inspection. -/
def IsInspecting : Agent.Call Bytes -> Prop
  | .uptimeNs | .wallTimeMs | .peek => True
  | _ => False

theorem within_inspect : lifetime.inspect.Within IsInspecting := by
  refine .bind (Agent.within_deadline_check trivial _) fun _ =>
    .bind (within_perform trivial) fun now => ?_
  split
  · refine .bind (within_perform trivial) fun peeked => ?_
    cases peeked <;> trivial
  · trivial

theorem agentReads_of_isInspecting
    {event : AgentEvent Bytes}
    (isInspecting : IsInspecting event.call)
    (served : AgentServed clocks timeline lifetime past event) :
    AgentReads clocks (timeline.time past.length) event := by
  obtain ⟨call, answer⟩ := event
  cases call <;> first | exact served | cases isInspecting

/-- What the worker inspects, it sees at the time of its own calls. -/
theorem lasts_inspect
    (lasts : LastsUntil clocks lifetime bound)
    (cancelledLate : CancelledLate timeline bound past) :
    lifetime.inspect.Meets (closesAfter clocks timeline lifetime bound) past
      (Lasts timeline bound) := by
  have allowed : ∀ past request, IsInspecting request ->
      (closesAfter clocks timeline lifetime bound).allows past request := by
    intro past request isInspecting
    cases request <;> trivial
  refine (within_inspect.meets allowed fun _ => trivial).answered.mono ?_
  rintro later result ⟨_, trace, rfl, ended, served⟩
  have inspecting := within_inspect.calls ended
  have reads : ∀ event ∈ trace,
      ∃ earlier ≤ timeline.time (past ++ trace).length, AgentReads clocks earlier event := by
    intro event member
    obtain ⟨before, after, split⟩ := List.append_of_mem member
    refine ⟨timeline.time (past ++ before).length, timeline.monotone ?_, ?_⟩
    · simp [split]
    · exact agentReads_of_isInspecting (inspecting event member) (served _ _ _ split)
  refine ⟨?_, ?_⟩
  · intro member
    rcases List.mem_append.mp member with member | member
    · exact (cancelledLate member).trans (timeline.monotone (by simp))
    · exact absurd (inspecting _ member) (by simp [IsInspecting])
  · rintro error rfl
    exact bound_le_of_inspect lasts ended reads

theorem lasts_check
    (lasts : LastsUntil clocks lifetime bound)
    (cancelledLate : CancelledLate timeline bound past) :
    lifetime.check.Meets (closesAfter clocks timeline lifetime bound) past
      (Lasts timeline bound) := by
  unfold RequestLifetime.check
  rw [meets_perform_bind]
  refine ⟨trivial, fun cancelled served => ?_⟩
  have cancelledLate' : CancelledLate timeline bound (past ++ [⟨.lifetimeCancelled, cancelled⟩]) :=
    cancelledLate.snoc (by simp)
  split
  · rename_i isCancelled
    refine ⟨cancelledLate', fun error _ => ?_⟩
    refine le_trans ?_ (time_le_snoc _)
    rcases served isCancelled with member | ⟨inspection, failure, fails, served⟩
    · exact cancelledLate member
    · exact bound_le_of_inspect lasts fails served
  · refine Meets.attempt_bind (lasts_inspect lasts cancelledLate') ?_
    rintro later result ⟨cancelledLate'', failsLate⟩
    cases result with
    | ok value => exact ⟨cancelledLate'', fun error impossible => by cases impossible⟩
    | error error =>
        have late := (failsLate error rfl).trans
          (time_le_snoc (⟨.cancelLifetime, ()⟩ : AgentEvent Bytes))
        exact ⟨trivial, fun _ _ => ⟨fun _ => late, fun _ _ => late⟩⟩

theorem Lasts.fails
    {α β : Type}
    {later : List (AgentEvent Bytes)}
    {error : Failure}
    (lasting : Lasts timeline bound later (.error error : Except Failure α)) :
    Fails timeline bound later (.error error : Except Failure β) :=
  ⟨lasting.2 error rfl, error, rfl⟩

theorem Fails.elim
    {α : Type}
    {later : List (AgentEvent Bytes)}
    {value : α}
    {goal : Prop}
    (fails : Fails timeline bound later (.ok value)) :
    goal := by
  obtain ⟨_, error, impossible⟩ := fails
  cases impossible

theorem Fails.rethrow
    {α β : Type}
    {later : List (AgentEvent Bytes)}
    {error : Failure}
    (fails : Fails timeline bound later (.error error : Except Failure α)) :
    Fails timeline bound later (.error error : Except Failure β) :=
  ⟨fails.1, error, rfl⟩

theorem lasts_awaitSlot
    (lasts : LastsUntil clocks lifetime bound)
    (cancelledLate : CancelledLate timeline bound past) :
    (Agent.awaitSlot lifetime rounds).Meets (closesAfter clocks timeline lifetime bound) past
      (Lasts timeline bound) := by
  induction rounds generalizing past with
  | zero => trivial
  | succ rounds inductionHypothesis =>
      unfold Agent.awaitSlot
      rw [meets_perform_bind]
      refine ⟨trivial, fun acquired _ => ?_⟩
      have waited : CancelledLate timeline bound (past ++ [⟨.slotWait 25, acquired⟩]) :=
        cancelledLate.snoc (by simp)
      split
      · exact ⟨waited, fun error impossible => by cases impossible⟩
      · refine Meets.bind (lasts_check lasts waited) ?_ ?_
        · exact fun later _ checked => inductionHypothesis checked.1
        · exact fun later error checked => checked

/-- No result comes. -/
theorem fails_awaitResult
    (lasts : LastsUntil clocks lifetime bound)
    (cancelledLate : CancelledLate timeline bound past) :
    (Agent.awaitResult lifetime rounds).Meets (closesAfter clocks timeline lifetime bound) past
      (Fails timeline bound) := by
  induction rounds generalizing past with
  | zero => trivial
  | succ rounds inductionHypothesis =>
      unfold Agent.awaitResult
      rw [meets_perform_bind]
      refine ⟨trivial, fun value none => ?_⟩
      obtain rfl : value = .none := none
      have looked : CancelledLate timeline bound (past ++ [⟨.resultValue, .none⟩]) :=
        cancelledLate.snoc (by simp)
      refine Meets.bind (lasts_check lasts looked) ?_ ?_
      · intro later _ checked
        rw [meets_perform_bind]
        refine ⟨trivial, fun _ _ => inductionHypothesis (checked.1.snoc (by simp))⟩
      · exact fun later error checked => checked.fails

/-- A call that cleans up after a failure takes no less time. -/
theorem Fails.snoc
    {α : Type}
    {later : List (AgentEvent Bytes)}
    {result : Except Failure α}
    (fails : Fails timeline bound later result)
    (event : AgentEvent Bytes) :
    Fails timeline bound (later ++ [event]) result :=
  ⟨fails.1.trans (time_le_snoc event), fails.2⟩

theorem fails_holdSlot
    {request : Agent.AuthRequestBody}
    {requireConfirmation : Bool}
    (lasts : LastsUntil clocks lifetime bound)
    (cancelledLate : CancelledLate timeline bound past) :
    (Agent.holdSlot request requireConfirmation lifetime rounds).Meets
      (closesAfter clocks timeline lifetime bound) past (Fails timeline bound) := by
  refine Meets.bind (lasts_check lasts cancelledLate) ?_ fun _ _ checked => checked.fails
  intro checked _ lasting
  rw [meets_perform_bind]
  refine ⟨trivial, fun _ _ => ?_⟩
  have made : CancelledLate timeline bound (checked ++ [⟨.makeSession, ()⟩]) :=
    lasting.1.snoc (by simp)
  have session : (Agent.runSession request requireConfirmation lifetime rounds).Meets
      (closesAfter clocks timeline lifetime bound) (checked ++ [⟨.makeSession, ()⟩])
      (Fails timeline bound) := by
    unfold Agent.runSession
    rw [meets_perform_bind]
    refine ⟨trivial, fun _ _ => ?_⟩
    exact Meets.bind (fails_awaitResult lasts (made.snoc (by simp))) (fun _ _ => Fails.elim)
      fun _ _ => Fails.rethrow
  exact Meets.ensuring session fun later result fails => ⟨trivial, fun _ _ => fails.snoc _⟩

/-- Nobody answers, so the evaluation ends when the lifetime is passed. -/
theorem fails_authenticate
    {runtime : AgentRuntime Bytes}
    {request : Agent.AuthRequestBody}
    (lasts : LastsUntil clocks lifetime bound)
    (cancelledLate : CancelledLate timeline bound past) :
    (Agent.authenticate runtime request lifetime rounds).Meets
      (closesAfter clocks timeline lifetime bound) past (Fails timeline bound) := by
  unfold Agent.authenticate
  rw [meets_perform_bind]
  refine ⟨trivial, fun allowed isAllowed => ?_⟩
  obtain rfl : allowed = true := isAllowed
  rw [if_pos rfl]
  have asked : CancelledLate timeline bound (past ++ [⟨.limiterAllow request, true⟩]) :=
    cancelledLate.snoc (by simp)
  refine Meets.bind (lasts_awaitSlot lasts asked) ?_ fun _ _ waited => waited.fails
  intro acquired _ lasting
  refine Meets.ensuring (fails_holdSlot lasts lasting.1) fun later result fails => ?_
  exact ⟨trivial, fun _ _ => fails.snoc _⟩

/-- What is left of a connection once its request has a lifetime. -/
def finish
    (platform : Platform Bytes)
    (runtime : AgentRuntime Bytes)
    (rounds : Nat)
    (request : Agent.AuthRequestBody)
    (lifetime : RequestLifetime) : Agent.Routine Bytes Unit := do
  let _ ← ((Agent.respond platform runtime request lifetime rounds).ensuring
    (perform Agent.Call.cancelLifetime)).attempt
  perform Agent.Call.closeHandle

/-- The connection is closed only when the lifetime is passed. -/
theorem meets_finish
    (platform : Platform Bytes)
    (runtime : AgentRuntime Bytes)
    (request : Agent.AuthRequestBody)
    (lasts : LastsUntil clocks lifetime bound)
    (cancelledLate : CancelledLate timeline bound past) :
    (finish platform runtime rounds request lifetime).Meets
      (closesAfter clocks timeline lifetime bound) past fun _ _ => True := by
  have responds : (Agent.respond platform runtime request lifetime rounds).Meets
      (closesAfter clocks timeline lifetime bound) past (Fails timeline bound) := by
    refine Meets.bind (lasts_check lasts cancelledLate) ?_ fun _ _ checked => checked.fails
    intro checked _ lasting
    exact Meets.bind (fails_authenticate lasts lasting.1) (fun _ _ => Fails.elim)
      fun _ _ => Fails.rethrow
  have cancels : ((Agent.respond platform runtime request lifetime rounds).ensuring
      (perform Agent.Call.cancelLifetime)).Meets (closesAfter clocks timeline lifetime bound) past
      (Fails timeline bound) :=
    Meets.ensuring responds fun later result fails => ⟨trivial, fun _ _ => fails.snoc _⟩
  refine Meets.attempt_bind cancels fun later result fails => ?_
  exact ⟨fails.1, fun _ _ => trivial⟩

end GivingUp

/-! ## Before the prompt -/

section Admission

variable {platform : Platform Bytes} {runtime : AgentRuntime Bytes} {rounds : Nat}
variable {clocks : Clocks} {timeline : Timeline} {lifetime : RequestLifetime}
variable {request : Agent.SignedAuthRequest} {admitting serving : List (AgentEvent Bytes)}

/-- A connection up to the lifetime of its verified request. -/
def admission (platform : Platform Bytes) (runtime : AgentRuntime Bytes) (rounds : Nat) :
    Agent.Routine Bytes (Agent.SignedAuthRequest × RequestLifetime) := do
  let deadline ← Deadline.start 15000
  let request ← Agent.receiveRequest platform runtime deadline rounds
  let lifetime ← RequestLifetime.start request.body.expiresAtMs deadline
  return (request, lifetime)

theorem ends_deadline_start
    {milliseconds : UInt64}
    {trace : List (AgentEvent Bytes)}
    {deadline : Deadline} :
    Ends (Deadline.start milliseconds) trace (.ok deadline) ↔
      ∃ now : UInt64, trace = [⟨.uptimeNs, now⟩] ∧
        deadline = ⟨Agent.deadlineAfter now milliseconds⟩ := by
  rw [Deadline.start, ends_perform_bind]
  constructor
  · rintro ⟨now, _, rfl, ended⟩
    obtain ⟨rfl, same⟩ := (ends_pure _ _ _).mp ended
    exact ⟨now, rfl, Except.ok.inj same⟩
  · rintro ⟨now, rfl, rfl⟩
    exact ⟨now, [], rfl, (ends_pure _ _ _).mpr ⟨rfl, rfl⟩⟩

/-- The parts of an admission. -/
theorem exists_parts
    (admits : Ends (admission platform runtime rounds) admitting (.ok (request, lifetime))) :
    ∃ (accepted : UInt64) (receiving starting : List (AgentEvent Bytes)),
      admitting = ⟨.uptimeNs, accepted⟩ :: (receiving ++ starting) ∧
      Ends (Agent.receiveRequest platform runtime ⟨Agent.deadlineAfter accepted 15000⟩ rounds)
        receiving (.ok request) ∧
      Ends (RequestLifetime.start request.body.expiresAtMs ⟨Agent.deadlineAfter accepted 15000⟩)
        starting (.ok lifetime) := by
  rw [admission, ends_bind_ok] at admits
  obtain ⟨_, _, deadline, rfl, begins, admits⟩ := admits
  obtain ⟨accepted, rfl, rfl⟩ := ends_deadline_start.mp begins
  rw [ends_bind_ok] at admits
  obtain ⟨receiving, _, received, rfl, receives, admits⟩ := admits
  rw [ends_bind_ok] at admits
  obtain ⟨starting, _, started, rfl, starts, admits⟩ := admits
  obtain ⟨rfl, same⟩ := (ends_pure _ _ _).mp admits
  obtain ⟨rfl, rfl⟩ := Prod.mk.inj (Except.ok.inj same)
  exact ⟨accepted, receiving, starting, by simp, receives, starts⟩

/-- A lifetime follows from two readings of the clocks. -/
theorem ends_lifetime_start
    {expiresAtMs : UInt64}
    {deadline : Deadline}
    {starting : List (AgentEvent Bytes)}
    (starts : Ends (RequestLifetime.start expiresAtMs deadline) starting (.ok lifetime)) :
    ∃ wall uptime : UInt64, starting = [⟨.wallTimeMs, wall⟩, ⟨.uptimeNs, uptime⟩] ∧
      lifetime.expiresAtMs = expiresAtMs ∧
      lifetime.deadline.uptimeNs = min deadline.uptimeNs (Agent.deadlineAfter uptime
        (if wall < expiresAtMs then expiresAtMs - wall else 0)) := by
  rw [RequestLifetime.start, ends_perform_bind] at starts
  obtain ⟨wall, _, rfl, starts⟩ := starts
  rw [ends_bind_ok] at starts
  obtain ⟨_, _, capped, rfl, caps, starts⟩ := starts
  obtain ⟨rfl, same⟩ := (ends_pure _ _ _).mp starts
  obtain rfl := Except.ok.inj same
  rw [Deadline.capped, ends_bind_ok] at caps
  obtain ⟨_, _, other, rfl, begins, caps⟩ := caps
  obtain ⟨uptime, rfl, rfl⟩ := ends_deadline_start.mp begins
  obtain ⟨rfl, same⟩ := (ends_pure _ _ _).mp caps
  obtain rfl := Except.ok.inj same
  exact ⟨wall, uptime, rfl, rfl, rfl⟩

/-- What remains of an admitted connection. -/
theorem steps_finish
    {rest : Agent.Routine Bytes Unit}
    (admits : Ends (admission platform runtime rounds) admitting (.ok (request, lifetime)))
    (steps : Steps (Agent.serveConnection platform runtime rounds) (admitting ++ serving) rest) :
    Steps (finish platform runtime rounds request.body lifetime) serving rest := by
  obtain ⟨accepted, receiving, starting, rfl, receives, starts⟩ := exists_parts admits
  have begins : Ends (Deadline.start 15000) [(⟨.uptimeNs, accepted⟩ : AgentEvent Bytes)]
      (.ok ⟨Agent.deadlineAfter accepted 15000⟩) := ends_deadline_start.mpr ⟨accepted, rfl, rfl⟩
  rw [List.cons_append, ← List.singleton_append, List.append_assoc] at steps
  have handles := begins.steps_bind steps
  exact starts.steps_attempt_bind (receives.steps_attempt_bind handles)

/-- The calls before the prompt. -/
def IsAdmitting : Agent.Call Bytes -> Prop
  | .uptimeNs | .wallTimeMs | .poll _ _ | .recv _ | .isValidSignature _ _ _ => True
  | _ => False

theorem within_admission : (admission platform runtime rounds).Within IsAdmitting := by
  have reads (request : Agent.Call Bytes) (isReading : Agent.IsReading request) :
      IsAdmitting request := by
    cases request <;> trivial
  refine .bind (.bind (within_perform trivial) fun _ => trivial) fun deadline => .bind ?_ ?_
  · refine .bind (Agent.within_capped trivial _ _) fun readDeadline =>
      .bind ((Agent.within_readJSONFrame _ _ _).mono reads) fun request => ?_
    split
    · trivial
    · refine .bind (.bind (within_done _) fun bytes => .bind (within_perform trivial) ?_)
        fun _ => trivial
      intro valid
      split
      · exact .bind (within_perform trivial) fun _ => within_done _
      · trivial
  · exact fun request => .bind (.bind (within_perform trivial) fun _ =>
      .bind (Agent.within_capped trivial _ _) fun _ => trivial) fun _ => trivial

/-- The time at which the agent gives up at the earliest. -/
def givesUpAt (clocks : Clocks) (accepted : Nat) (expiresAtMs : UInt64) : Nat :=
  min (accepted + 15000000000) (expiresAtMs.toNat * 1000000 - clocks.agentWall)

theorem sub_le_of_le_milliseconds
    {clock time milliseconds : Nat}
    (passed : milliseconds ≤ millisecondsAt clock time) :
    milliseconds * 1000000 - clock ≤ time := by
  unfold millisecondsAt at passed
  omega

/-- Once the rest of the validity has passed since it was computed, the request has expired. -/
theorem sub_le_of_duration
    {uptime clock read later time milliseconds : Nat}
    (passed : uptime + later + (milliseconds - millisecondsAt clock read) * 1000000 ≤ uptime + time)
    (ordered : read ≤ later) :
    milliseconds * 1000000 - clock ≤ time := by
  unfold millisecondsAt at passed
  omega

theorem add_le_of_min_le
    {uptime accepted time : Nat}
    (noOverflow : uptime + accepted + 15000000000 < 2 ^ 64)
    (passed : min (uptime + accepted + 15000 * 1000000) (2 ^ 64 - 1) ≤ uptime + time) :
    accepted + 15000000000 ≤ time := by
  omega

/-- The lifetime lasts until the request expires, or for fifteen seconds. -/
theorem lastsUntil_of_admits
    (admits : Ends (admission platform runtime rounds) admitting (.ok (request, lifetime)))
    (served : ∀ before event after, admitting = before ++ event :: after ->
      AgentServed clocks timeline lifetime before event)
    (noOverflow : clocks.agentUptime + timeline.time 0 + 15000000000 < 2 ^ 64) :
    LastsUntil clocks lifetime
      (givesUpAt clocks (timeline.time 0) request.body.expiresAtMs) := by
  obtain ⟨accepted, receiving, starting, rfl, receives, starts⟩ := exists_parts admits
  obtain ⟨wall, uptime, rfl, expires, deadline⟩ := ends_lifetime_start starts
  dsimp only at deadline
  have acceptedAt : accepted.toNat = clocks.agentUptime + timeline.time 0 :=
    served [] _ _ rfl
  have wallAt := served (⟨.uptimeNs, accepted⟩ :: receiving) ⟨.wallTimeMs, wall⟩
    [⟨.uptimeNs, uptime⟩] (by simp)
  have uptimeAt := served (⟨.uptimeNs, accepted⟩ :: (receiving ++ [⟨.wallTimeMs, wall⟩]))
    ⟨.uptimeNs, uptime⟩ [] (by simp)
  have ordered : timeline.time (receiving.length + 1) ≤ timeline.time (receiving.length + 2) :=
    timeline.monotone (Nat.le_succ _)
  have duration : (if wall < request.body.expiresAtMs then
      request.body.expiresAtMs - wall else 0).toNat =
        request.body.expiresAtMs.toNat - wall.toNat := by
    split
    · rename_i early
      exact UInt64.toNat_sub_of_le _ _ (UInt64.le_of_lt early)
    · rename_i passed
      rw [UInt64.not_lt, UInt64.le_iff_toNat_le] at passed
      exact (Nat.sub_eq_zero_of_le passed).symm
  have wallRead : wall.toNat =
      millisecondsAt clocks.agentWall (timeline.time (receiving.length + 1)) := wallAt
  have uptimeRead : uptime.toNat = clocks.agentUptime + timeline.time (receiving.length + 2) := by
    simpa [AgentServed, AgentReads] using uptimeAt
  have connection := Agent.toNat_deadlineAfter accepted 15000
  have expiry := Agent.toNat_deadlineAfter uptime (if wall < request.body.expiresAtMs then
    request.body.expiresAtMs - wall else 0)
  rw [duration] at expiry
  have fifteen : (15000 : UInt64).toNat = 15000 := rfl
  refine ⟨fun time passed => ?_, fun time passed => ?_⟩
  · rw [deadline, Agent.toNat_min, connection, expiry, fifteen, acceptedAt, uptimeRead] at passed
    rcases min_le_iff.mp passed with connectionOver | expiryOver
    · exact (min_le_left _ _).trans (add_le_of_min_le noOverflow connectionOver)
    · rcases min_le_iff.mp expiryOver with durationOver | saturated
      · rw [wallRead] at durationOver
        exact (min_le_right _ _).trans (sub_le_of_duration durationOver ordered)
      · refine (min_le_left _ _).trans (add_le_of_min_le noOverflow ?_)
        exact (min_le_right _ _).trans saturated
  · rw [expires] at passed
    exact (min_le_right _ _).trans (sub_le_of_le_milliseconds passed)

end Admission

/-! ## Who gives up first -/

/-- The agent has closed the connection by some time. -/
def ClosedBy (timeline : Timeline) (trace : List (AgentEvent Bytes)) (time : Nat) : Prop :=
  ∃ before after, trace = before ++ ⟨.closeHandle, ()⟩ :: after ∧
    timeline.time before.length ≤ time

/-- The agent closes the connection after fifteen seconds or when the request has expired on its
clock. -/
theorem givesUpAt_le_of_closedBy
    {platform : Platform Bytes}
    {runtime : AgentRuntime Bytes}
    {rounds : Nat}
    {clocks : Clocks}
    {timeline : Timeline}
    {lifetime : RequestLifetime}
    {request : Agent.SignedAuthRequest}
    {admitting serving : List (AgentEvent Bytes)}
    {rest : Agent.Routine Bytes Unit}
    {time : Nat}
    (admits : Ends (admission platform runtime rounds) admitting (.ok (request, lifetime)))
    (steps : Steps (Agent.serveConnection platform runtime rounds) (admitting ++ serving) rest)
    (served : ∀ before event after, admitting ++ serving = before ++ event :: after ->
      AgentServed clocks timeline lifetime before event)
    (noOverflow : clocks.agentUptime + timeline.time 0 + 15000000000 < 2 ^ 64)
    (closedBy : ClosedBy timeline (admitting ++ serving) time) :
    givesUpAt clocks (timeline.time 0) request.body.expiresAtMs ≤ time := by
  have admittingCalls := within_admission.calls admits
  have lasts := lastsUntil_of_admits admits
    (fun before event after split => served before event (after ++ serving) (by simp [split]))
    noOverflow
  have cancelledLate : CancelledLate timeline
      (givesUpAt clocks (timeline.time 0) request.body.expiresAtMs) admitting := by
    intro member
    exact (admittingCalls _ member).elim
  obtain ⟨allowed, _⟩ := (meets_finish platform runtime request.body lasts cancelledLate).steps
    (steps_finish admits steps)
    fun before event after split => served (admitting ++ before) event after (by simp [split])
  obtain ⟨before, after, split, inTime⟩ := closedBy
  rcases List.append_eq_append_iff.mp split with ⟨middle, rfl, later⟩ | ⟨middle, same, later⟩
  · exact (allowed middle _ after later).trans inTime
  · cases middle with
    | nil =>
        rw [List.append_nil] at same
        subst same
        have closes := allowed [] _ after later.symm
        rw [List.append_nil] at closes
        exact closes.trans inTime
    | cons event middle =>
        obtain ⟨rfl, _⟩ := List.cons.inj later
        exact (admittingCalls ⟨.closeHandle, ()⟩ (by simp [same])).elim

/-- The helper's deadline comes before the expiry of its request on a clock that is behind. -/
theorem deadline_le_of_behind
    {latency wall instant validity clock uptime first second time : Nat}
    (wallRead : wall = millisecondsAt clock first)
    (instantRead : instant = uptime + second)
    (prompt : second ≤ first + latency)
    {agentClock : Nat}
    (behind : agentClock + 2 * latency + 1000000 ≤ clock)
    (expired : (wall + validity) * 1000000 - agentClock ≤ time) :
    instant + validity * 1000000 + latency ≤ uptime + time := by
  unfold millisecondsAt at wallRead
  omega

/-- What the helper has read while it prepared its request. -/
theorem closesLate_of_prepared
    {clocks : Clocks}
    {helperTime : Timeline}
    {latency : Nat}
    (accepted : Nat)
    {closed : Nat -> Prop}
    {prepared : Prepared}
    {preparing : List HelperEvent}
    (origin : Helper.PreparedFrom prepared preparing)
    (served : ∀ before event after, preparing = before ++ event :: after ->
      HelperServed clocks helperTime latency closed before event)
    (behind : clocks.agentWall + 2 * latency + 1000000 ≤ clocks.helperWall)
    (inTime : prepared.deadline + latency ≤ clocks.helperUptime + accepted + 15000000000)
    (closes : ∀ time, closed time ->
      givesUpAt clocks accepted prepared.request.body.expiresAtMs ≤ time) :
    ClosesLate clocks latency prepared.deadline closed := by
  obtain ⟨wallRead, readWall, wallAt⟩ := served origin.setup ⟨.wallClock, some origin.wall⟩ _
    origin.trace_eq
  obtain ⟨instantAt, prompt⟩ := served (origin.setup ++ [⟨.wallClock, some origin.wall⟩])
    ⟨.instant, origin.instant⟩ _ (origin.trace_eq.trans (List.append_cons _ _ _))
  obtain rfl := Option.some.inj readWall
  unfold Timeline.Prompt at prompt
  simp only [List.length_append, List.length_singleton, Nat.add_sub_cancel] at prompt instantAt
  intro time isClosed
  rcases min_le_iff.mp (closes time isClosed) with limit | expiry
  · omega
  · rw [origin.expires_eq] at expiry
    rw [origin.deadline_eq]
    exact deadline_le_of_behind wallAt instantAt prompt behind expiry

/-- A run of the helper and of a worker of the agent in which nobody answers the prompt. The agent
has verified the request of the helper. -/
structure UnansweredRun where
  clocks : Clocks
  /-- The time that a call may take if it need not wait. -/
  latency : Nat
  crates : Crates
  rounds : Nat
  args : RequestArgs
  helperTime : Timeline
  preparing : List HelperEvent
  prepared : Prepared
  waiting : List HelperEvent
  result : Except Stop Nat
  platform : Platform Bytes
  runtime : AgentRuntime Bytes
  agentRounds : Nat
  agentTime : Timeline
  admitting : List (AgentEvent Bytes)
  lifetime : RequestLifetime
  serving : List (AgentEvent Bytes)
  rest : Agent.Routine Bytes Unit
  prepares : Ends (Helper.prepareRequest crates args) preparing (.ok prepared)
  runs : Ends (Helper.runRequest crates rounds args) (preparing ++ waiting) result
  fits : (crates.requestToJson prepared.request).length ≤ Helper.maxFrameLen
  helperServed : ∀ before event after, preparing ++ waiting = before ++ event :: after ->
    HelperServed clocks helperTime latency (ClosedBy agentTime (admitting ++ serving)) before event
  admits : Ends (admission platform runtime agentRounds) admitting
    (.ok (decodeRequest prepared.request, lifetime))
  serves : Steps (Agent.serveConnection platform runtime agentRounds) (admitting ++ serving) rest
  agentServed : ∀ before event after, admitting ++ serving = before ++ event :: after ->
    AgentServed clocks agentTime lifetime before event
  /-- The clock of the agent does not overflow, which it would do after centuries. -/
  noOverflow : clocks.agentUptime + agentTime.time 0 + 15000000000 < 2 ^ 64

/-- If nobody answers the prompt, then the helper falls back to the password, provided that the
agent's clock is behind the helper's and that the deadline comes before the agent's own limit. -/
theorem unanswered_prompt_falls_back
    (run : UnansweredRun)
    (behind : run.clocks.agentWall + 2 * run.latency + 1000000 ≤ run.clocks.helperWall)
    (inTime : run.prepared.deadline + run.latency ≤
      run.clocks.helperUptime + run.agentTime.time 0 + 15000000000) :
    Helper.exitCode run.result = Helper.exitUnavailable := by
  obtain ⟨origin⟩ := Helper.ends_prepareRequest run.prepares
  have closes (time : Nat)
      (closedBy : ClosedBy run.agentTime (run.admitting ++ run.serving) time) :=
    givesUpAt_le_of_closedBy run.admits run.serves run.agentServed run.noOverflow closedBy
  have sameExpiry : (decodeRequest run.prepared.request).body.expiresAtMs =
      run.prepared.request.body.expiresAtMs := rfl
  rw [sameExpiry] at closes
  have late := closesLate_of_prepared (run.agentTime.time 0) origin
    (fun before event after split =>
      run.helperServed before event (after ++ run.waiting) (by simp [split]))
    behind inTime closes
  have waits : (do
      let response ← Helper.exchange run.crates run.rounds run.prepared
      Helper.judgeResponse run.crates run.rounds run.prepared response :
        Helper.Routine Stop Nat).Meets
      (unanswered run.clocks run.helperTime run.latency
        (ClosedBy run.agentTime (run.admitting ++ run.serving))) run.preparing
      fun _ result => result = .error (.exit Helper.exitUnavailable) := by
    refine Meets.bind (unanswered_exchange late run.fits) ?_ ?_
    · intro later response impossible
      cases impossible
    · intro later error failed
      obtain rfl := Except.error.inj failed
      rfl
  obtain ⟨_, ended⟩ := waits.steps (run.prepares.steps_bind run.runs)
    fun before event after split =>
      run.helperServed (run.preparing ++ before) event after (by simp [split])
  have isUnavailable : run.result = .error (.exit Helper.exitUnavailable) := ended
  rw [isUnavailable]
  rfl

/-! ## Two prompts that nobody answers -/

namespace Quiet

open Protocol (utf8)

/-- Every event is served after the ones before it. -/
def AllServed {Event : Type} (served : List Event -> Event -> Prop) :
    List Event -> List Event -> Prop
  | _, [] => True
  | past, event :: trace => served past event ∧ AllServed served (past ++ [event]) trace

theorem AllServed.at
    {Event : Type}
    {served : List Event -> Event -> Prop}
    {past trace before after : List Event}
    {event : Event}
    (allServed : AllServed served past trace)
    (split : trace = before ++ event :: after) :
    served (past ++ before) event := by
  induction trace generalizing past before with
  | nil => simp at split
  | cons head trace inductionHypothesis =>
      cases before with
      | nil =>
          obtain ⟨rfl, rfl⟩ := List.cons.inj split
          rw [List.append_nil]
          exact allServed.1
      | cons first before =>
          obtain ⟨rfl, rfl⟩ := List.cons.inj split
          have later := inductionHypothesis allServed.2 rfl
          rwa [List.append_assoc] at later

/-- Nothing takes time until one call, which is answered when a thread wakes up. -/
def wakesAt (position wake : Nat) : Timeline where
  time call := if call < position then 0 else wake
  monotone first second ordered := by
    dsimp only
    split
    · exact Nat.zero_le _
    · rw [if_neg (by omega)]

/-- The helper waits once for the socket. -/
def respondHelper (wake : Nat) (polled : Helper.PollResult) (surroundings : Nat × World Unit) :
    (request : Helper.Call) -> request.Answer × (Nat × World Unit)
  | .instant => (surroundings.1, surroundings)
  | .poll _ _ => (polled, (wake, surroundings.2))
  | .recv _ =>
      (if surroundings.1 = 0 then .wouldBlock else .transferred ⟨[], Nat.zero_le _⟩, surroundings)
  | request =>
      let answered := surroundings.2.respondHelper request
      (answered.1, (surroundings.1, answered.2))

/-- The worker waits once for the session. -/
def respondWorker (wall wake : Nat) (surroundings : Nat × World Unit) :
    (request : Agent.Call Bytes) -> request.Answer × (Nat × World Unit)
  | .uptimeNs => (UInt64.ofNat surroundings.1, surroundings)
  | .wallTimeMs => (UInt64.ofNat (millisecondsAt wall surroundings.1), surroundings)
  | .resultValue => (none, surroundings)
  | .readyWait _ => ((), (wake, surroundings.2))
  | .isValidSignature _ _ _ => (true, surroundings)
  | request =>
      let answered := surroundings.2.respondWorker request
      (answered.1, (surroundings.1, answered.2))

def start : Nat × World Unit := (0, ⟨[], .initial 0 fun _ => []⟩)

def preparing : List HelperEvent :=
  (System.follow (respondHelper 0 .timedOut) 5 (Helper.prepareRequest webCrates webArgs) start).1

def prepared : Prepared where
  request := ⟨Agent.webRequest.body.toProtocol, List.replicate 64 7⟩
  agentPubkey := webKey
  socket := utf8 "/run/agent.sock"
  deadline := 15000000000
  allowedFutureSkewMs := 30000
  replayCache := none

/-- The helper after it has prepared its request. -/
def waiting (wake : Nat) (polled : Helper.PollResult) :
    List HelperEvent × Helper.Routine Stop Nat × Nat × World Unit :=
  System.follow (respondHelper wake polled) 30 (do
    let response ← Helper.exchange webCrates 3 prepared
    Helper.judgeResponse webCrates 3 prepared response) start

def admitting (wall : Nat) : List (AgentEvent Bytes) :=
  (System.follow (respondWorker wall 0) 16 (admission Agent.webPlatform Agent.webRuntime 3) start).1

/-- The worker after it has verified the request. -/
def serving (wall wake : Nat) (lifetime : RequestLifetime) : List (AgentEvent Bytes) :=
  (System.follow (respondWorker wall wake) 30
    (finish Agent.webPlatform Agent.webRuntime 3 Agent.webRequest.body lifetime) start).1

set_option maxRecDepth 4000 in
theorem ends_preparing :
    Ends (Helper.prepareRequest webCrates webArgs) preparing (.ok prepared) :=
  System.steps_follow (respondHelper 0 .timedOut) 5 (Helper.prepareRequest webCrates webArgs) start

/-- The helper's calls before it waits for a response. -/
def requesting : List HelperEvent :=
  preparing ++ (waiting 0 .timedOut).1.take 14

set_option maxRecDepth 8000 in
theorem helperServed_requesting
    {agentWall wake : Nat}
    {closed : Nat -> Prop}
    (later : List HelperEvent)
    (served : AllServed (HelperServed ⟨0, 1000000000, 0, agentWall⟩ (wakesAt 19 wake) 0 closed)
      requesting later) :
    AllServed (HelperServed ⟨0, 1000000000, 0, agentWall⟩ (wakesAt 19 wake) 0 closed) []
      (requesting ++ later) := by
  have wall : (1000 : UInt64).toNat = millisecondsAt 1000000000 0 := rfl
  refine ⟨⟨1000, rfl, wall⟩, ⟨rfl, le_rfl⟩, trivial, trivial, trivial, ⟨rfl, le_rfl⟩, trivial,
    trivial, trivial, ⟨rfl, le_rfl⟩, trivial, ⟨rfl, le_rfl⟩, ⟨rfl, le_rfl⟩,
    ⟨le_rfl, .inr (.inr (.inl ⟨_, rfl, ?_⟩))⟩, ⟨rfl, le_rfl⟩,
    ⟨le_rfl, .inr (.inr (.inl ⟨_, rfl, ?_⟩))⟩, ⟨rfl, le_rfl⟩, ⟨le_rfl, .inl rfl⟩, ⟨rfl, le_rfl⟩,
    served⟩
  · decide
  · decide

/-- The agent's clock is one second behind the helper's, so the agent gives up last. -/
def lifetimeBehind : RequestLifetime := ⟨⟨15000000000⟩, 16000⟩

/-- The agent's clock is five seconds ahead, so the agent gives up first. -/
def lifetimeAhead : RequestLifetime := ⟨⟨10000000000⟩, 16000⟩

set_option maxRecDepth 8000 in
theorem agentServed_behind :
    AllServed (AgentServed ⟨0, 1000000000, 0, 999000000⟩ (wakesAt 33 15001000000) lifetimeBehind) []
      (admitting 999000000 ++ serving 999000000 15001000000 lifetimeBehind) := by
  have wall : (999 : UInt64).toNat = millisecondsAt 999000000 0 := rfl
  have zero : (0 : UInt64).toNat = 0 + 0 := rfl
  have woken : (15001000000 : UInt64).toNat = 0 + 15001000000 := rfl
  have clear {cancelled : Prop} (impossible : false = true) : cancelled := by cases impossible
  exact ⟨zero, zero, zero, zero, trivial, zero, trivial, zero, zero, trivial, zero, trivial,
    trivial, wall, wall, zero, clear, zero, wall, rfl, rfl, trivial, clear, zero, wall, rfl,
    trivial, trivial, rfl, clear, zero, wall, rfl, trivial, rfl, clear, woken, trivial, trivial,
    trivial, trivial, trivial, trivial⟩

/-- The helper after its deadline. -/
def timingOut : List HelperEvent :=
  (waiting 15001000000 .timedOut).1.drop 14

/-- The helper after the agent has closed the connection. -/
def hangingUp : List HelperEvent :=
  (waiting 10600000000 (.ready false)).1.drop 14

set_option maxRecDepth 8000 in
theorem ends_timingOut :
    Ends (Helper.runRequest webCrates 3 webArgs) (preparing ++ (waiting 15001000000 .timedOut).1)
      (.error (.exit Helper.exitUnavailable)) :=
  System.steps_follow (respondHelper 15001000000 .timedOut) 40
    (Helper.runRequest webCrates 3 webArgs) start

set_option maxRecDepth 8000 in
theorem ends_hangingUp :
    Ends (Helper.runRequest webCrates 3 webArgs)
      (preparing ++ (waiting 10600000000 (.ready false)).1)
      (.error (.exit Helper.exitProtocol)) :=
  System.steps_follow (respondHelper 10600000000 (.ready false)) 40
    (Helper.runRequest webCrates 3 webArgs) start

theorem ends_admitting
    {events : List (AgentEvent Bytes)}
    {request : Agent.SignedAuthRequest}
    {computed lifetime : RequestLifetime}
    (admits : Ends (admission Agent.webPlatform Agent.webRuntime 3) events
      (.ok (request, computed)))
    (same : computed = lifetime) :
    Ends (admission Agent.webPlatform Agent.webRuntime 3) events (.ok (request, lifetime)) := by
  rwa [same] at admits

set_option maxRecDepth 8000 in
theorem ends_admitting_behind :
    Ends (admission Agent.webPlatform Agent.webRuntime 3) (admitting 999000000)
      (.ok (decodeRequest prepared.request, lifetimeBehind)) := by
  refine ends_admitting (System.steps_follow (respondWorker 999000000 0) 16
    (admission Agent.webPlatform Agent.webRuntime 3) start) ?_
  exact congrArg₂ RequestLifetime.mk (congrArg Deadline.mk (by decide +kernel)) rfl

set_option maxRecDepth 8000 in
theorem ends_admitting_ahead :
    Ends (admission Agent.webPlatform Agent.webRuntime 3) (admitting 6000000000)
      (.ok (decodeRequest prepared.request, lifetimeAhead)) := by
  refine ends_admitting (System.steps_follow (respondWorker 6000000000 0) 16
    (admission Agent.webPlatform Agent.webRuntime 3) start) ?_
  exact congrArg₂ RequestLifetime.mk (congrArg Deadline.mk (by decide +kernel)) rfl

set_option maxRecDepth 8000 in
theorem ends_serving_behind :
    Ends (Agent.serveConnection Agent.webPlatform Agent.webRuntime 3)
      (admitting 999000000 ++ serving 999000000 15001000000 lifetimeBehind) (.ok ()) :=
  System.steps_follow (respondWorker 999000000 15001000000) 50
    (Agent.serveConnection Agent.webPlatform Agent.webRuntime 3) start

set_option maxRecDepth 8000 in
theorem ends_serving_ahead :
    Ends (Agent.serveConnection Agent.webPlatform Agent.webRuntime 3)
      (admitting 6000000000 ++ serving 6000000000 10500000000 lifetimeAhead) (.ok ()) :=
  System.steps_follow (respondWorker 6000000000 10500000000) 50
    (Agent.serveConnection Agent.webPlatform Agent.webRuntime 3) start

set_option maxRecDepth 8000 in
theorem agentServed_ahead :
    AllServed
      (AgentServed ⟨0, 1000000000, 0, 6000000000⟩ (wakesAt 33 10500000000) lifetimeAhead) []
      (admitting 6000000000 ++ serving 6000000000 10500000000 lifetimeAhead) := by
  have wall : (6000 : UInt64).toNat = millisecondsAt 6000000000 0 := rfl
  have zero : (0 : UInt64).toNat = 0 + 0 := rfl
  have woken : (10500000000 : UInt64).toNat = 0 + 10500000000 := rfl
  have clear {cancelled : Prop} (impossible : false = true) : cancelled := by cases impossible
  exact ⟨zero, zero, zero, zero, trivial, zero, trivial, zero, zero, trivial, zero, trivial,
    trivial, wall, wall, zero, clear, zero, wall, rfl, rfl, trivial, clear, zero, wall, rfl,
    trivial, trivial, rfl, clear, zero, wall, rfl, trivial, rfl, clear, woken, trivial, trivial,
    trivial, trivial, trivial, trivial⟩

set_option maxRecDepth 8000 in
theorem helperServed_timingOut {closed : Nat -> Prop} :
    AllServed (HelperServed ⟨0, 1000000000, 0, 999000000⟩ (wakesAt 19 15001000000) 0 closed) []
      (preparing ++ (waiting 15001000000 .timedOut).1) :=
  helperServed_requesting timingOut
    ⟨.inr (.inl rfl), ⟨rfl, le_rfl⟩, trivial⟩

set_option maxRecDepth 8000 in
theorem helperServed_hangingUp {closed : Nat -> Prop} (isClosed : closed 10600000000) :
    AllServed (HelperServed ⟨0, 1000000000, 0, 6000000000⟩ (wakesAt 19 10600000000) 0 closed) []
      (preparing ++ (waiting 10600000000 (.ready false)).1) :=
  helperServed_requesting hangingUp
    ⟨.inl rfl, ⟨rfl, le_rfl⟩, ⟨le_rfl, .inr (.inr isClosed)⟩, trivial⟩

set_option maxRecDepth 8000 in
theorem fits : (webCrates.requestToJson prepared.request).length ≤ Helper.maxFrameLen := by
  decide +kernel

/-- The agent gives up after the helper. -/
def behind : UnansweredRun where
  clocks := ⟨0, 1000000000, 0, 999000000⟩
  latency := 0
  crates := webCrates
  rounds := 3
  args := webArgs
  helperTime := wakesAt 19 15001000000
  preparing := preparing
  prepared := prepared
  waiting := (waiting 15001000000 .timedOut).1
  result := .error (.exit Helper.exitUnavailable)
  platform := Agent.webPlatform
  runtime := Agent.webRuntime
  agentRounds := 3
  agentTime := wakesAt 33 15001000000
  admitting := admitting 999000000
  lifetime := lifetimeBehind
  serving := serving 999000000 15001000000 lifetimeBehind
  rest := .done (.ok ())
  prepares := ends_preparing
  runs := ends_timingOut
  fits := fits
  helperServed _ _ _ split := helperServed_timingOut.at split
  admits := ends_admitting_behind
  serves := ends_serving_behind
  agentServed _ _ _ split := agentServed_behind.at split
  noOverflow := by decide

set_option maxRecDepth 8000 in
theorem closedBy_ahead :
    ClosedBy (wakesAt 33 10500000000)
      (admitting 6000000000 ++ serving 6000000000 10500000000 lifetimeAhead) 10600000000 :=
  ⟨(admitting 6000000000 ++ serving 6000000000 10500000000 lifetimeAhead).take 41, [], rfl,
    by decide⟩

/-- The agent gives up before the helper. -/
def ahead : UnansweredRun where
  clocks := ⟨0, 1000000000, 0, 6000000000⟩
  latency := 0
  crates := webCrates
  rounds := 3
  args := webArgs
  helperTime := wakesAt 19 10600000000
  preparing := preparing
  prepared := prepared
  waiting := (waiting 10600000000 (.ready false)).1
  result := .error (.exit Helper.exitProtocol)
  platform := Agent.webPlatform
  runtime := Agent.webRuntime
  agentRounds := 3
  agentTime := wakesAt 33 10500000000
  admitting := admitting 6000000000
  lifetime := lifetimeAhead
  serving := serving 6000000000 10500000000 lifetimeAhead
  rest := .done (.ok ())
  prepares := ends_preparing
  runs := ends_hangingUp
  fits := fits
  helperServed _ _ _ split := (helperServed_hangingUp closedBy_ahead).at split
  admits := ends_admitting_ahead
  serves := ends_serving_ahead
  agentServed _ _ _ split := agentServed_ahead.at split
  noOverflow := by decide

end Quiet

theorem unanswered_prompt_falls_back_behind :
    Helper.exitCode Quiet.behind.result = Helper.exitUnavailable :=
  unanswered_prompt_falls_back Quiet.behind (by decide) (by decide)

/-- If the agent's clock is ahead, then the helper may report a protocol error instead, which does
not fall back to the password. -/
theorem exists_unanswered_protocol_error :
    ∃ run : UnansweredRun,
      run.prepared.deadline + run.latency ≤
        run.clocks.helperUptime + run.agentTime.time 0 + 15000000000 ∧
      Helper.exitCode run.result = Helper.exitProtocol :=
  ⟨Quiet.ahead, by decide, rfl⟩

end EndToEnd
end MacosAuth
