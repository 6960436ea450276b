import MacosAuth.Agent.Safety
import MacosAuth.Arithmetic.Word
import MacosAuth.Effect.Crash

/-!
# Deadline arithmetic

Deadlines are computed with reported overflows and guarded subtractions on 64-bit words.
No operation stops the program, a capped deadline ends with the earlier of its two ends,
and the remaining time is rounded up. So a wait that lasts for the remaining time does not
end before the deadline.
-/

namespace MacosAuth
namespace Agent

open Effect Effect.Program

/-! ## The operations on words -/

/-- The end of `Deadline(milliseconds:)`, from two operations that report overflow. -/
def endReportingOverflow (now milliseconds : UInt64) : UInt64 :=
  let duration := Word.mulReportingOverflow milliseconds 1000000
  let sum := Word.addReportingOverflow now duration.1
  if duration.2 || sum.2 then UInt64.ofNat (UInt64.size - 1) else sum.1

/-- `remainingMilliseconds` with operations that stop the program on overflow. -/
def Deadline.remainingChecked (deadline : Deadline) (now : UInt64) : Option Nat :=
  if now < deadline.uptimeNs then do
    let left ← Word.checkedSub deadline.uptimeNs now
    let before ← Word.checkedSub left 1
    let rounded ← Word.checkedAdd (before / 1000000) 1
    Word.checkedInt32 (min (UInt64.ofNat (2 ^ 31 - 1)) rounded)
  else
    some 0

/-- The duration of `RequestLifetime.init`. -/
def lifetimeChecked (expiresAtMs now : UInt64) : Option UInt64 :=
  if now < expiresAtMs then Word.checkedSub expiresAtMs now else some 0

theorem toNat_million : (1000000 : UInt64).toNat = 1000000 :=
  rfl

theorem endReportingOverflow_eq (now milliseconds : UInt64) :
    endReportingOverflow now milliseconds = deadlineAfter now milliseconds := by
  unfold endReportingOverflow deadlineAfter Word.mulReportingOverflow Word.addReportingOverflow
  have size : UInt64.size = 2 ^ 64 := rfl
  by_cases long : UInt64.size ≤ milliseconds.toNat * 1000000
  · simp [toNat_million, long]
  · have product : (milliseconds * 1000000).toNat = milliseconds.toNat * 1000000 := by
      rw [UInt64.toNat_mul, toNat_million]
      omega
    simp [toNat_million, long, product]

/-- The end of a deadline is exact, or is the largest word. -/
theorem toNat_deadlineAfter (now milliseconds : UInt64) :
    (deadlineAfter now milliseconds).toNat =
      min (now.toNat + milliseconds.toNat * 1000000) (2 ^ 64 - 1) := by
  have size : UInt64.size = 2 ^ 64 := rfl
  unfold deadlineAfter
  split
  · rename_i overflow
    have largest : (UInt64.ofNat (UInt64.size - 1)).toNat = UInt64.size - 1 := rfl
    omega
  · rename_i small
    rw [UInt64.toNat_add, UInt64.toNat_mul, toNat_million]
    omega

/-- No step of `remainingMilliseconds` overflows. -/
theorem remainingChecked_eq (deadline : Deadline) (now : UInt64) :
    deadline.remainingChecked now = some (deadline.remainingAt now) := by
  unfold Deadline.remainingChecked Deadline.remainingAt
  by_cases early : now < deadline.uptimeNs
  · rw [if_pos early, if_pos early]
    have size : UInt64.size = 2 ^ 64 := rfl
    have one : (1 : UInt64).toNat = 1 := rfl
    have bound := deadline.uptimeNs.toNat_lt
    have ordered : now.toNat < deadline.uptimeNs.toNat := UInt64.lt_iff_toNat_lt.mp early
    have left : (deadline.uptimeNs - now).toNat = deadline.uptimeNs.toNat - now.toNat :=
      UInt64.toNat_sub_of_le _ _ (UInt64.le_of_lt early)
    have positive : 1 ≤ deadline.uptimeNs - now := by
      rw [UInt64.le_iff_toNat_le, left, one]
      omega
    have before : (deadline.uptimeNs - now - 1).toNat =
        deadline.uptimeNs.toNat - now.toNat - 1 := by
      rw [UInt64.toNat_sub_of_le _ _ positive, left, one]
    have quotient : ((deadline.uptimeNs - now - 1) / 1000000).toNat =
        (deadline.uptimeNs.toNat - now.toNat - 1) / 1000000 := by
      rw [UInt64.toNat_div, before, toNat_million]
    have fits : ((deadline.uptimeNs - now - 1) / 1000000).toNat + (1 : UInt64).toNat <
        UInt64.size := by
      rw [quotient, one]
      omega
    have rounded : ((deadline.uptimeNs - now - 1) / 1000000 + 1).toNat =
        (deadline.uptimeNs.toNat - now.toNat - 1) / 1000000 + 1 := by
      rw [UInt64.toNat_add, quotient, one]
      omega
    have largest : (UInt64.ofNat (2 ^ 31 - 1)).toNat = 2 ^ 31 - 1 := rfl
    have narrow : (min (UInt64.ofNat (2 ^ 31 - 1))
        ((deadline.uptimeNs - now - 1) / 1000000 + 1)).toNat < 2 ^ 31 := by
      rw [toNat_min, largest]
      omega
    rw [Word.checkedSub_of_le (UInt64.le_of_lt early), Option.bind_eq_bind, Option.bind_some,
      Word.checkedSub_of_le positive, Option.bind_some, Word.checkedAdd_of_lt fits,
      Option.bind_some, Word.checkedInt32_of_lt narrow, toNat_min, rounded, largest]
  · rw [if_neg early, if_neg early]

theorem lifetimeChecked_eq (expiresAtMs now : UInt64) :
    lifetimeChecked expiresAtMs now =
      some (if now < expiresAtMs then expiresAtMs - now else 0) := by
  unfold lifetimeChecked
  by_cases early : now < expiresAtMs
  · rw [if_pos early, if_pos early, Word.checkedSub_of_le (UInt64.le_of_lt early)]
  · rw [if_neg early, if_neg early]

/-- The remaining time is rounded up to milliseconds, unless it is clamped. -/
theorem remainingAt_bounds
    {deadline : Deadline}
    {now : UInt64}
    (near : deadline.uptimeNs.toNat - now.toNat ≤ (2 ^ 31 - 1) * 1000000) :
    deadline.uptimeNs.toNat - now.toNat ≤ deadline.remainingAt now * 1000000 ∧
      deadline.remainingAt now * 1000000 <
        deadline.uptimeNs.toNat - now.toNat + 1000000 := by
  unfold Deadline.remainingAt
  by_cases early : now < deadline.uptimeNs
  · rw [if_pos early]
    rw [UInt64.lt_iff_toNat_lt] at early
    omega
  · rw [if_neg early]
    rw [UInt64.lt_iff_toNat_lt] at early
    omega

/-! ## Nested deadlines -/

section Nesting

variable {Key : Type}

/-- A deadline that is capped once for each of the durations. -/
def Deadline.cappedAll : Deadline -> List UInt64 -> Routine Key Deadline
  | deadline, [] => pure deadline
  | deadline, milliseconds :: rest => do
      let other ← deadline.capped milliseconds
      other.cappedAll rest

/-- A deadline made from a first duration and capped by others. -/
def Deadline.nested (milliseconds : UInt64) (caps : List UInt64) : Routine Key Deadline := do
  let deadline ← Deadline.start milliseconds
  deadline.cappedAll caps

/-- The readings of the clock, one for each duration. -/
def uptimes (readings : List UInt64) : List (AgentEvent Key) :=
  readings.map fun now => ⟨.uptimeNs, now⟩

/-- The least of the ends that the durations have at their readings of the clock. -/
def leastEnd (deadline : Deadline) (readings durations : List UInt64) : UInt64 :=
  (readings.zipWith deadlineAfter durations).foldl min deadline.uptimeNs

theorem ends_start
    {milliseconds : UInt64}
    {trace : List (AgentEvent Key)}
    {result : Except Failure Deadline} :
    Ends (Deadline.start milliseconds) trace result ↔
      ∃ now : UInt64, trace = [⟨.uptimeNs, now⟩] ∧
        result = .ok ⟨deadlineAfter now milliseconds⟩ := by
  unfold Deadline.start
  rw [ends_perform_bind]
  constructor
  · rintro ⟨now, rest, rfl, ended⟩
    obtain ⟨rfl, returned⟩ := (ends_pure _ _ _).mp ended
    exact ⟨now, rfl, returned⟩
  · rintro ⟨now, rfl, rfl⟩
    exact ⟨now, [], rfl, (ends_pure _ _ _).mpr ⟨rfl, rfl⟩⟩

/-- A capped deadline ends with the earlier of the two ends. -/
theorem ends_capped
    {deadline : Deadline}
    {milliseconds : UInt64}
    {trace : List (AgentEvent Key)}
    {result : Except Failure Deadline} :
    Ends (deadline.capped milliseconds) trace result ↔
      ∃ now : UInt64, trace = [⟨.uptimeNs, now⟩] ∧
        result = .ok ⟨min deadline.uptimeNs (deadlineAfter now milliseconds)⟩ := by
  unfold Deadline.capped
  rw [ends_bind]
  constructor
  · rintro (⟨first, second, other, rfl, started, ended⟩ | ⟨error, started, _⟩)
    · obtain ⟨now, rfl, equal⟩ := ends_start.mp started
      obtain rfl := Except.ok.inj equal
      obtain ⟨rfl, returned⟩ := (ends_pure _ _ _).mp ended
      exact ⟨now, rfl, returned⟩
    · obtain ⟨_, _, equal⟩ := ends_start.mp started
      cases equal
  · rintro ⟨now, rfl, rfl⟩
    exact .inl ⟨[_], [], _, rfl, ends_start.mpr ⟨now, rfl, rfl⟩,
      (ends_pure _ _ _).mpr ⟨rfl, rfl⟩⟩

/-- Induction over the caps: each one takes a reading and can only bring the end closer. -/
theorem ends_cappedAll
    {deadline : Deadline}
    {caps : List UInt64}
    {trace : List (AgentEvent Key)}
    {result : Except Failure Deadline}
    (ended : Ends (deadline.cappedAll caps) trace result) :
    ∃ readings : List UInt64, readings.length = caps.length ∧ trace = uptimes readings ∧
      result = .ok ⟨leastEnd deadline readings caps⟩ := by
  induction caps generalizing deadline trace with
  | nil =>
      obtain ⟨rfl, returned⟩ := (ends_pure _ _ _).mp ended
      exact ⟨[], rfl, rfl, returned⟩
  | cons milliseconds rest inductionHypothesis =>
      unfold Deadline.cappedAll at ended
      rcases (ends_bind _ _ _ _).mp ended with
        ⟨first, second, other, rfl, capped, continued⟩ | ⟨error, capped, _⟩
      · obtain ⟨now, rfl, equal⟩ := ends_capped.mp capped
        obtain rfl := Except.ok.inj equal
        obtain ⟨readings, length, rfl, returned⟩ := inductionHypothesis continued
        refine ⟨now :: readings, by simp [length], rfl, returned⟩
      · obtain ⟨_, _, equal⟩ := ends_capped.mp capped
        cases equal

theorem ends_nested
    {milliseconds : UInt64}
    {caps : List UInt64}
    {trace : List (AgentEvent Key)}
    {result : Except Failure Deadline}
    (ended : Ends (Deadline.nested milliseconds caps) trace result) :
    ∃ (now : UInt64) (readings : List UInt64), readings.length = caps.length ∧
      trace = uptimes (now :: readings) ∧
      result = .ok ⟨leastEnd ⟨deadlineAfter now milliseconds⟩ readings caps⟩ := by
  unfold Deadline.nested at ended
  rcases (ends_bind _ _ _ _).mp ended with
    ⟨first, second, deadline, rfl, started, capped⟩ | ⟨error, started, _⟩
  · obtain ⟨now, rfl, equal⟩ := ends_start.mp started
    obtain rfl := Except.ok.inj equal
    obtain ⟨readings, length, rfl, returned⟩ := ends_cappedAll capped
    exact ⟨now, readings, length, rfl, returned⟩
  · obtain ⟨_, _, equal⟩ := ends_start.mp started
    cases equal

/-- The check of a deadline reads the clock once and compares it with the end. -/
theorem ends_check
    {deadline : Deadline}
    {trace : List (AgentEvent Key)}
    {result : Except Failure Unit} :
    Ends deadline.check trace result ↔
      ∃ now : UInt64, trace = [⟨.uptimeNs, now⟩] ∧
        result = if now < deadline.uptimeNs then .ok () else .error (.agent .timeout) := by
  have checks : ∀ now : UInt64, (if 0 < deadline.remainingAt now then pure () else raise .timeout :
      Routine Key Unit) =
        .done (if now < deadline.uptimeNs then .ok () else .error (.agent .timeout)) := by
    intro now
    by_cases early : now < deadline.uptimeNs
    · rw [if_pos early, if_pos (remainingAt_pos_iff.mpr early)]
      rfl
    · rw [if_neg early, if_neg fun positive => early (remainingAt_pos_iff.mp positive)]
      rfl
  change Ends (perform Call.uptimeNs >>= fun now : UInt64 =>
    (if 0 < deadline.remainingAt now then pure () else raise .timeout : Routine Key Unit)) trace
      result ↔ _
  rw [ends_perform_bind]
  constructor
  · rintro ⟨now, rest, rfl, ended⟩
    rw [checks] at ended
    obtain ⟨rfl, returned⟩ := (ends_done _ _ _).mp ended
    exact ⟨now, rfl, returned⟩
  · rintro ⟨now, rfl, rfl⟩
    refine ⟨now, [], rfl, ?_⟩
    rw [checks]
    exact (ends_done _ _ _).mpr ⟨rfl, rfl⟩

end Nesting

/-! ## Waiting for a socket -/

section Waiting

variable {Key : Type} {platform : Platform Key} {interest : Interest} {deadline : Deadline}

/-- A monotonic clock in nanoseconds goes on with every call, and a poll that times out has
lasted for the whole time that it was given. -/
def ClockServes (now : Nat) : (request : Call Key) -> request.Answer -> Nat -> Prop
  | .uptimeNs, reading, after =>
      now ≤ (show UInt64 from reading).toNat ∧ (show UInt64 from reading).toNat ≤ after
  | .poll _ timeoutMs, .timedOut, after => now + timeoutMs * 1000000 ≤ after
  | _, _, after => now ≤ after

/-- A time-out is reported only when the deadline has passed. -/
def LateTimeout {α : Type} (deadline : Deadline) (now : Nat) (result : Except Failure α)
    (after : Nat) : Prop :=
  now ≤ after ∧ (result = .error (.agent .timeout) -> deadline.uptimeNs.toNat ≤ after)

/-- A failed check comes after the deadline. -/
theorem survives_check (now : Nat) :
    (deadline.check : Routine Key Unit).Survives ClockServes (fun _ => True) now
      (LateTimeout deadline now) := by
  refine ⟨trivial, fun reading after served => ?_⟩
  obtain ⟨before, passed⟩ : now ≤ (show UInt64 from reading).toNat ∧
      (show UInt64 from reading).toNat ≤ after := served
  have elapsed : now ≤ after := before.trans passed
  change (if 0 < deadline.remainingAt reading then pure () else raise .timeout :
    Routine Key Unit).Survives _ _ _ _
  by_cases early : 0 < deadline.remainingAt reading
  · rw [if_pos early]
    exact ⟨trivial, elapsed, fun impossible => nomatch impossible⟩
  · rw [if_neg early]
    have late : ¬(show UInt64 from reading) < deadline.uptimeNs :=
      fun ahead => early (remainingAt_pos_iff.mpr ahead)
    rw [UInt64.lt_iff_toNat_lt] at late
    exact ⟨trivial, elapsed, fun _ => by omega⟩

/-- Induction over the rounds: the clock goes on, so a deadline that was near stays near,
and a wait that lasts for the rounded time does not end before the deadline. -/
theorem survives_waitForSocket
    (rounds now : Nat)
    (near : deadline.uptimeNs.toNat ≤ now + (2 ^ 31 - 1) * 1000000) :
    (waitForSocket platform interest deadline rounds).Survives ClockServes (fun _ => True) now
      (LateTimeout deadline now) := by
  induction rounds generalizing now with
  | zero => trivial
  | succ rounds inductionHypothesis =>
      unfold waitForSocket
      refine Survives.bind (survives_check now) ?_ fun error after late => late
      rintro ⟨⟩ checked _ ⟨elapsed, _⟩
      refine ⟨trivial, fun reading measured served => ?_⟩
      obtain ⟨before, passed⟩ : checked ≤ (show UInt64 from reading).toNat ∧
          (show UInt64 from reading).toNat ≤ measured := served
      refine ⟨trivial, fun result polled served => ?_⟩
      cases result with
      | interrupted =>
          have waited : measured ≤ polled := served
          refine (inductionHypothesis polled (by omega)).mono ?_
          rintro result after _ ⟨later, late⟩
          exact ⟨by omega, late⟩
      | failed code =>
          have waited : measured ≤ polled := served
          exact ⟨trivial, by omega, fun impossible => nomatch impossible⟩
      | timedOut =>
          have waited : measured + deadline.remainingAt reading * 1000000 ≤ polled := served
          have rounded : deadline.uptimeNs.toNat - UInt64.toNat reading ≤
              deadline.remainingAt reading * 1000000 := by
            refine (remainingAt_bounds ?_).1
            have later : checked ≤ UInt64.toNat reading := before
            omega
          have late : UInt64.toNat reading ≤ measured := passed
          exact ⟨trivial, by omega, fun _ => by omega⟩
      | ready invalid =>
          have waited : measured ≤ polled := served
          change (do
            deadline.check
            if invalid then raise (.io "socket closed") else pure () : Routine Key Unit).Survives
              _ _ _ _
          refine Survives.bind (survives_check polled) ?_ ?_
          · rintro ⟨⟩ after _ ⟨later, _⟩
            cases invalid with
            | true => exact ⟨trivial, by omega, fun impossible => nomatch impossible⟩
            | false => exact ⟨trivial, by omega, fun impossible => nomatch impossible⟩
          · rintro error after ⟨later, late⟩
            exact ⟨by omega, late⟩

end Waiting

/-- The deadline of a request is the earlier of the end of its connection and its expiry. -/
theorem ends_lifetime_deadline
    {Key : Type}
    {expiresAtMs : UInt64}
    {connectionDeadline : Deadline}
    {lifetime : RequestLifetime}
    {trace : List (AgentEvent Key)}
    (ended : Ends (RequestLifetime.start expiresAtMs connectionDeadline) trace (.ok lifetime)) :
    lifetime.deadline.uptimeNs ≤ connectionDeadline.uptimeNs ∧
      ∃ wall now duration : UInt64, lifetimeChecked expiresAtMs wall = some duration ∧
        lifetime.deadline.uptimeNs =
          min connectionDeadline.uptimeNs (endReportingOverflow now duration) := by
  obtain ⟨wall, now, _, _, capped⟩ := ends_lifetime_start ended
  constructor
  · rw [capped, UInt64.le_iff_toNat_le, toNat_min]
    exact Nat.min_le_left _ _
  · refine ⟨wall, now, _, lifetimeChecked_eq expiresAtMs wall, ?_⟩
    rw [endReportingOverflow_eq]
    exact capped

/-- Deadlines never overflow, never grow when they are capped, and are never early. -/
theorem deadline_arithmetic
    (Key : Type)
    (platform : Platform Key) :
    (∀ now milliseconds : UInt64,
      endReportingOverflow now milliseconds = deadlineAfter now milliseconds ∧
      (deadlineAfter now milliseconds).toNat =
        min (now.toNat + milliseconds.toNat * 1000000) (2 ^ 64 - 1)) ∧
    (∀ (deadline : Deadline) (now : UInt64),
      deadline.remainingChecked now = some (deadline.remainingAt now)) ∧
    (∀ expiresAtMs now : UInt64, lifetimeChecked expiresAtMs now =
      some (if now < expiresAtMs then expiresAtMs - now else 0)) ∧
    (∀ (milliseconds : UInt64) (caps : List UInt64) (trace : List (AgentEvent Key))
        (result : Except Failure Deadline),
      Ends (Deadline.nested milliseconds caps) trace result ->
        ∃ (now : UInt64) (readings : List UInt64), readings.length = caps.length ∧
          trace = uptimes (now :: readings) ∧
          result = .ok ⟨leastEnd ⟨deadlineAfter now milliseconds⟩ readings caps⟩) ∧
    (∀ (expiresAtMs : UInt64) (connectionDeadline : Deadline) (lifetime : RequestLifetime)
        (trace : List (AgentEvent Key)),
      Ends (RequestLifetime.start expiresAtMs connectionDeadline) trace (.ok lifetime) ->
        lifetime.deadline.uptimeNs ≤ connectionDeadline.uptimeNs) ∧
    (∀ (deadline : Deadline) (trace : List (AgentEvent Key)) (result : Except Failure Unit),
      Ends deadline.check trace result ↔
        ∃ now : UInt64, trace = [⟨.uptimeNs, now⟩] ∧
          result = if now < deadline.uptimeNs then .ok () else .error (.agent .timeout)) ∧
    (∀ (deadline : Deadline) (now : UInt64),
      deadline.uptimeNs.toNat - now.toNat ≤ (2 ^ 31 - 1) * 1000000 ->
      deadline.uptimeNs.toNat - now.toNat ≤ deadline.remainingAt now * 1000000 ∧
        deadline.remainingAt now * 1000000 <
          deadline.uptimeNs.toNat - now.toNat + 1000000) ∧
    ∀ (interest : Interest) (deadline : Deadline) (rounds start after : Nat)
        (trace : List (AgentEvent Key)),
      deadline.uptimeNs.toNat ≤ start + (2 ^ 31 - 1) * 1000000 ->
      Executes ClockServes (waitForSocket platform interest deadline rounds) start trace
          (.done (.error (.agent .timeout))) after ->
        deadline.uptimeNs.toNat ≤ after := by
  refine ⟨fun now milliseconds => ⟨endReportingOverflow_eq now milliseconds,
      toNat_deadlineAfter now milliseconds⟩, remainingChecked_eq, lifetimeChecked_eq,
    fun _ _ _ _ => ends_nested, fun _ _ _ _ started => (ends_lifetime_deadline started).1,
    fun _ _ _ => ends_check, fun _ _ unclamped => remainingAt_bounds unclamped,
    fun interest deadline rounds start after trace near executes => ?_⟩
  exact (((survives_waitForSocket rounds start near).executes executes).2 _ rfl).2 rfl

end Agent
end MacosAuth
