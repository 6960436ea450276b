import MacosAuth.Agent.Authentication
import MacosAuth.Agent.Safety

/-!
# The slot of the authentication coordinator

One session at a time runs between its start and its cancellation, and it is cancelled
before another worker gets the slot. A worker returns a decision only if its own session
completed with it first and the lifetime was active afterwards. What a session does after
its worker has left concerns no other thread. A session that ends without a completion
leaves a lifetime that never becomes active again, so its worker gives the slot back after
a few calls.
-/

namespace MacosAuth
namespace Agent
namespace Coordinator

open Effect Effect.Program

variable {Key : Type}

/-! ## Workers -/

/-- Where a worker stands. While its session runs, it counts its calls since it last looked
at the flag of the lifetime. -/
inductive Stage
  | queued
  | holding
  | running (calls : Nat)
  /-- A check of the lifetime has found the flag set. -/
  | leaving
  | cancelled
  | released
  deriving DecidableEq

def Stage.after : Stage -> AgentEvent Key -> Stage
  | .queued, ⟨.slotWait _, true⟩ => .holding
  | .holding, ⟨.sessionStart _ _, _⟩ => .running 0
  | .holding, ⟨.slotSignal, _⟩ => .released
  | .running _, ⟨.lifetimeCancelled, true⟩ => .leaving
  | .running _, ⟨.lifetimeCancelled, false⟩ => .running 0
  | .running _, ⟨.sessionCancel, _⟩ => .cancelled
  | .running calls, _ => .running (calls + 1)
  | .leaving, ⟨.sessionCancel, _⟩ => .cancelled
  | .cancelled, ⟨.slotSignal, _⟩ => .released
  | stage, _ => stage

/-- Where a worker stands after its calls so far. -/
def stage (past : List (AgentEvent Key)) : Stage :=
  past.foldl Stage.after .queued

@[simp] theorem stage_append (past : List (AgentEvent Key)) (event : AgentEvent Key) :
    stage (past ++ [event]) = (stage past).after event := by
  simp [stage]

def Stage.HoldsSlot : Stage -> Prop
  | .queued | .released => False
  | .holding | .running _ | .leaving | .cancelled => True

/-- The largest number of calls that a worker still makes, once it can only find the flag set
and no result. -/
def Stage.remaining : Stage -> Nat
  | .running calls => 8 - calls
  | .leaving => 2
  | .cancelled => 1
  | .queued | .holding | .released => 0

def isWait : AgentEvent Key -> Bool
  | ⟨.slotWait _, _⟩ => true
  | ⟨.readyWait _, _⟩ => true
  | _ => false

/-- The number of waits for the slot and for the session. -/
def waits (past : List (AgentEvent Key)) : Nat :=
  past.countP isWait

@[simp] theorem waits_append (past : List (AgentEvent Key)) (event : AgentEvent Key) :
    waits (past ++ [event]) = waits past + if isWait event then 1 else 0 := by
  simp [waits, List.countP_cons]

theorem waits_le_of_prefix
    {past later : List (AgentEvent Key)}
    (extended : past <+: later) :
    waits past ≤ waits later :=
  extended.sublist.countP_le

/-- The worker may look at the clocks and at the peer. -/
def Stage.MayCheck : Stage -> Prop
  | .queued | .holding => True
  | .running calls => calls < 5
  | .leaving | .cancelled | .released => False

/-- The session of the worker runs, and the worker may leave it. -/
def InSession (past : List (AgentEvent Key)) : Prop :=
  stage past = .leaving ∨ ∃ calls ≤ 5, stage past = .running calls

/-- A worker takes the slot once, starts its session once and while it holds the slot, cancels
the session before it gives the slot back, and looks at the flag of the lifetime at least
every sixth call while the session runs. -/
def workerContract (evaluation : Evaluation) (rounds : Nat) :
    Contract (Agent.Call Key) Agent.Call.Answer where
  relies _ _ := True
  allows past
    | .slotWait _ => stage past = .queued
    | .makeSession => stage past = .holding
    | .sessionStart request requireConfirmation =>
        stage past = .holding ∧ request = evaluation.request ∧
          requireConfirmation = evaluation.requireConfirmation
    | .sessionCancel => InSession past
    | .slotSignal => stage past = .holding ∨ stage past = .cancelled
    | .lifetimeCancelled =>
        stage past = .queued ∨ stage past = .holding ∨ ∃ calls ≤ 5, stage past = .running calls
    | .resultValue => ∃ calls < 5, stage past = .running calls
    | .readyWait _ => ∃ calls < 5, stage past = .running calls
    | .uptimeNs => (stage past).MayCheck
    | .wallTimeMs => (stage past).MayCheck
    | .peek => (stage past).MayCheck
    | .cancelLifetime => (stage past).MayCheck
    | _ => False
  givesUp past := rounds ≤ waits past

section Worker

variable {evaluation : Evaluation} {rounds : Nat} {past : List (AgentEvent Key)}

/-- The calls of a check of the lifetime. -/
def IsCheck : Agent.Call Key -> Prop
  | .lifetimeCancelled | .uptimeNs | .wallTimeMs | .peek | .cancelLifetime => True
  | _ => False

theorem settles_deadline_check (deadline : Deadline) :
    (deadline.check : Routine Key Unit).Settles IsCheck fun _ => True := by
  refine .bind (.bind (settles_perform trivial) fun _ => trivial) fun remaining => ?_
  split
  · trivial
  · trivial

theorem settles_lifetime_check (lifetime : RequestLifetime) :
    (lifetime.check : Routine Key Unit).Settles IsCheck fun _ => True := by
  refine .bind (settles_perform trivial) fun cancelled => ?_
  split
  · trivial
  · refine .bind (Settles.attempt (.bind (settles_deadline_check _) fun _ =>
      .bind (settles_perform trivial) fun now => ?_)) fun result => ?_
    · split
      · refine .bind (settles_perform trivial) fun peeked => ?_
        cases peeked with
        | again => trivial
        | data => trivial
        | closed => trivial
        | failed code => trivial
      · trivial
    · cases result with
      | ok _ => trivial
      | error error => exact .bind (settles_perform trivial) fun _ => trivial

/-- A worker without a session may check its lifetime, and stays where it stands. -/
theorem meets_check_idle
    {program : Routine Key Unit}
    {before : Stage}
    (settles : program.Settles IsCheck fun _ => True)
    (idle : before = .queued ∨ before = .holding)
    (stands : stage past = before) :
    program.Meets (workerContract evaluation rounds) past fun later _ => stage later = before := by
  induction program generalizing past with
  | done result => exact stands
  | exhausted => exact settles.elim
  | call request next inductionHypothesis =>
      have unmoved (answer : request.Answer) : stage (past ++ [⟨request, answer⟩]) = before := by
        rw [stage_append, stands]
        have checking := settles.1
        rcases idle with rfl | rfl
        · cases request <;> first | rfl | cases checking
        · cases request <;> first | rfl | cases checking
      refine ⟨?_, fun answer _ => inductionHypothesis answer (settles.2 answer) (unmoved answer)⟩
      have checking := settles.1
      have mayCheck : (stage past).MayCheck := by
        rw [stands]
        rcases idle with rfl | rfl
        · trivial
        · trivial
      cases request with
      | lifetimeCancelled => exact idle.imp (stands.trans ·) fun holding => .inl (stands.trans holding)
      | uptimeNs => exact mayCheck
      | wallTimeMs => exact mayCheck
      | peek => exact mayCheck
      | cancelLifetime => exact mayCheck
      | _ => exact checking.elim

/-- One more call of a worker whose session runs. -/
theorem stage_counts
    {calls : Nat}
    (stands : stage past = .running calls)
    {event : AgentEvent Key}
    (counts : (Stage.running calls).after event = .running (calls + 1)) :
    stage (past ++ [event]) = .running (calls + 1) := by
  rw [stage_append, stands, counts]

theorem mayCheck_of_running
    {calls : Nat}
    (few : calls < 5)
    (stands : stage past = .running calls) :
    (stage past).MayCheck := by
  rw [stands]
  exact few

theorem meets_deadline_check
    {deadline : Deadline}
    (stands : stage past = .running 0) :
    (deadline.check : Routine Key Unit).Meets (workerContract evaluation rounds) past
      fun later _ => stage later = .running 1 := by
  unfold Deadline.check Deadline.remainingMilliseconds
  rw [meets_bind, meets_perform_bind]
  refine ⟨mayCheck_of_running (by omega) stands, fun now _ => ?_⟩
  change (if 0 < deadline.remainingAt now then _ else _ : Routine Key Unit).Meets _ _ _
  split
  · exact stage_counts stands rfl
  · exact stage_counts stands rfl

/-- The checks that follow when the flag was clear. -/
theorem meets_inspect
    {lifetime : RequestLifetime}
    (stands : stage past = .running 0) :
    (lifetime.inspect : Routine Key Unit).Meets (workerContract evaluation rounds) past
      fun later result =>
        match result with
        | .ok _ => stage later = .running 3
        | .error _ => ∃ calls < 5, stage later = .running calls := by
  refine Meets.bind (meets_deadline_check stands) ?_ fun later _ read => ⟨1, by omega, read⟩
  intro later _ read
  rw [meets_perform_bind]
  refine ⟨mayCheck_of_running (by omega) read, fun wall _ => ?_⟩
  have looked : stage (later ++ [⟨.wallTimeMs, wall⟩]) = .running 2 := stage_counts read rfl
  split
  · rw [meets_perform_bind]
    refine ⟨mayCheck_of_running (by omega) looked, fun peeked _ => ?_⟩
    have peek := stage_counts looked
      (show (Stage.running 2).after ⟨.peek, peeked⟩ = .running (2 + 1) from rfl)
    cases peeked with
    | again => exact peek
    | data => exact ⟨3, by omega, peek⟩
    | closed => exact ⟨3, by omega, peek⟩
    | failed code => exact ⟨3, by omega, peek⟩
  · exact ⟨2, by omega, looked⟩

/-- Where a check leaves a worker whose session runs. -/
def Checked (later : List (AgentEvent Key)) : Except Failure Unit -> Prop
  | .ok _ => stage later = .running 3
  | .error _ => InSession later

theorem meets_check_running
    {lifetime : RequestLifetime}
    {calls : Nat}
    (few : calls ≤ 5)
    (stands : stage past = .running calls) :
    (lifetime.check : Routine Key Unit).Meets (workerContract evaluation rounds) past Checked := by
  unfold RequestLifetime.check
  rw [meets_perform_bind]
  refine ⟨.inr (.inr ⟨calls, few, stands⟩), fun cancelled _ => ?_⟩
  cases cancelled with
  | true => exact .inl (by simp [stands, Stage.after])
  | false =>
      have cleared : stage (past ++ [⟨.lifetimeCancelled, false⟩]) = .running 0 := by
        simp [stands, Stage.after]
      refine Meets.attempt_bind (meets_inspect cleared) fun later result inspected => ?_
      cases result with
      | ok _ => exact inspected
      | error error =>
          obtain ⟨made, few, stands⟩ := inspected
          rw [meets_perform_bind]
          exact ⟨mayCheck_of_running few stands, fun _ _ =>
            .inr ⟨made + 1, few, stage_counts stands rfl⟩⟩

theorem meets_awaitSlot
    {lifetime : RequestLifetime}
    {left : Nat}
    (enough : rounds ≤ waits past + left)
    (stands : stage past = .queued) :
    (awaitSlot lifetime left : Routine Key Unit).Meets (workerContract evaluation rounds) past
      fun later result =>
        match result with
        | .ok _ => stage later = .holding
        | .error _ => stage later = .queued := by
  induction left generalizing past with
  | zero => exact enough
  | succ left inductionHypothesis =>
      unfold awaitSlot
      rw [meets_perform_bind]
      refine ⟨stands, fun acquired _ => ?_⟩
      cases acquired with
      | true =>
          change stage _ = _
          simp [stands, Stage.after]
      | false =>
          have waited : waits (past ++ [⟨.slotWait 25, false⟩]) = waits past + 1 := by
            simp [isWait]
          have still : stage (past ++ [⟨.slotWait 25, false⟩]) = .queued := by
            simp [stands, Stage.after]
          refine Meets.bind (meets_check_idle (settles_lifetime_check lifetime) (.inl rfl)
            still).extends ?_ fun _ _ holds => holds.2
          rintro later _ ⟨extended, checked⟩
          have grown := waits_le_of_prefix extended
          apply inductionHypothesis
          · omega
          · exact checked

theorem meets_awaitResult
    {lifetime : RequestLifetime}
    {left calls : Nat}
    (enough : rounds ≤ waits past + left)
    (few : calls ≤ 4)
    (stands : stage past = .running calls) :
    (awaitResult lifetime left : Routine Key Unit).Meets (workerContract evaluation rounds) past
      fun later result =>
        match result with
        | .ok _ => ∃ made ≤ 5, stage later = .running made
        | .error _ => InSession later := by
  induction left generalizing past calls with
  | zero => exact enough
  | succ left inductionHypothesis =>
      unfold awaitResult
      rw [meets_perform_bind]
      refine ⟨⟨calls, by omega, stands⟩, fun value _ => ?_⟩
      have seen := stage_counts stands
        (show (Stage.running calls).after ⟨.resultValue, value⟩ = .running (calls + 1) from rfl)
      cases value with
      | some decision => exact ⟨calls + 1, by omega, seen⟩
      | none =>
          refine Meets.bind (meets_check_running (by omega) seen).extends ?_ fun _ _ holds => holds.2
          rintro later _ ⟨extended, checked⟩
          have grown := waits_le_of_prefix extended
          rw [meets_perform_bind]
          refine ⟨⟨3, by omega, checked⟩, fun _ _ => ?_⟩
          refine inductionHypothesis ?_ (Nat.le_refl 4) (stage_counts checked rfl)
          have unchanged : waits (past ++ [⟨.resultValue, none⟩]) = waits past := by
            simp [isWait]
          have waited : waits (later ++ [⟨.readyWait 25, ()⟩]) = waits later + 1 := by
            simp [isWait]
          rw [waited]
          omega

theorem meets_runSession
    (stands : stage past = .holding) :
    (runSession evaluation.request evaluation.requireConfirmation evaluation.lifetime rounds :
      Routine Key Decision).Meets (workerContract evaluation rounds) past
      fun later _ => InSession later := by
  have started : stage (past ++ [⟨.sessionStart evaluation.request
      evaluation.requireConfirmation, ()⟩]) = .running 0 := by
    simp [stands, Stage.after]
  unfold runSession
  rw [meets_perform_bind]
  refine ⟨⟨stands, rfl, rfl⟩, fun _ _ => ?_⟩
  refine Meets.bind (meets_awaitResult (by omega) (by omega) started) ?_ fun _ _ left => left
  rintro later _ ⟨made, few, running⟩
  refine Meets.bind (meets_check_running few running) ?_ fun _ _ left => left
  intro checked _ stands
  rw [meets_perform_bind]
  refine ⟨⟨3, by omega, stands⟩, fun value _ => ?_⟩
  have seen : InSession (checked ++ [⟨.resultValue, value⟩]) :=
    .inr ⟨4, by omega, stage_counts stands rfl⟩
  cases value with
  | some decision => exact seen
  | none => exact seen

theorem stage_sessionCancel
    (inSession : InSession past) :
    stage (past ++ [⟨.sessionCancel, ()⟩]) = .cancelled := by
  rcases inSession with leaving | ⟨calls, _, running⟩
  · simp [leaving, Stage.after]
  · simp [running, Stage.after]

theorem meets_holdSlot
    (stands : stage past = .holding) :
    (holdSlot evaluation.request evaluation.requireConfirmation evaluation.lifetime rounds :
      Routine Key Decision).Meets (workerContract evaluation rounds) past
      fun later _ => stage later = .holding ∨ stage later = .cancelled := by
  unfold holdSlot
  refine Meets.bind (meets_check_idle (settles_lifetime_check _) (.inr rfl) stands) ?_
    fun _ _ holding => .inl holding
  intro later _ holding
  rw [meets_perform_bind]
  refine ⟨holding, fun _ _ => ?_⟩
  have made : stage (later ++ [⟨.makeSession, ()⟩]) = .holding := by
    simp [holding, Stage.after]
  refine Meets.ensuring (meets_runSession made) fun final result inSession => ?_
  exact ⟨inSession, fun _ _ => .inr (stage_sessionCancel inSession)⟩

/-- Where a worker stands when it has ended. -/
def Left (later : List (AgentEvent Key)) : Except Failure Decision -> Prop
  | .ok _ => stage later = .released
  | .error _ => stage later = .queued ∨ stage later = .released

theorem meets_evaluate (evaluation : Evaluation) (rounds : Nat) :
    (evaluate evaluation.request evaluation.requireConfirmation evaluation.lifetime rounds :
      Routine Key Decision).Meets (workerContract evaluation rounds) [] Left := by
  unfold evaluate
  refine Meets.bind (meets_awaitSlot (by omega) rfl) ?_ fun _ _ queued => .inl queued
  intro later _ holding
  refine Meets.ensuring (meets_holdSlot holding) fun final result stands => ?_
  have released : stage (final ++ [⟨.slotSignal, ()⟩]) = .released := by
    rcases stands with holding | cancelled
    · simp [holding, Stage.after]
    · simp [cancelled, Stage.after]
  refine ⟨stands, fun _ _ => ?_⟩
  cases result with
  | ok decision => exact released
  | error error => exact .inr released

/-! ## What the stage tells about the past -/

/-- The worker has started its session. -/
def SessionStarted (past : List (AgentEvent Key)) : Prop :=
  ∃ request requireConfirmation, ⟨.sessionStart request requireConfirmation, ()⟩ ∈ past

/-- The worker has cancelled its session. -/
def SessionCancelled (past : List (AgentEvent Key)) : Prop :=
  ⟨.sessionCancel, ()⟩ ∈ past

/-- The worker has given the slot back. -/
def SlotReleased (past : List (AgentEvent Key)) : Prop :=
  ⟨.slotSignal, ()⟩ ∈ past

/-- How a call moves a worker. -/
inductive Stage.Moves : Stage -> AgentEvent Key -> Stage -> Prop
  | stays (stage : Stage) (event : AgentEvent Key) : Moves stage event stage
  | acquires (timeout : Nat) : Moves .queued ⟨.slotWait timeout, true⟩ .holding
  | starts (request : AuthRequestBody) (requireConfirmation : Bool) :
      Moves .holding ⟨.sessionStart request requireConfirmation, ()⟩ (.running 0)
  | counts (event : AgentEvent Key) (before after : Nat) :
      Moves (.running before) event (.running after)
  | refused (calls : Nat) : Moves (.running calls) ⟨.lifetimeCancelled, true⟩ .leaving
  | cancels (calls : Nat) : Moves (.running calls) ⟨.sessionCancel, ()⟩ .cancelled
  | leaves : Moves .leaving ⟨.sessionCancel, ()⟩ .cancelled
  | givesUp : Moves .holding ⟨.slotSignal, ()⟩ .released
  | releases : Moves .cancelled ⟨.slotSignal, ()⟩ .released

theorem Stage.moves (stage : Stage) (event : AgentEvent Key) :
    stage.Moves event (stage.after event) := by
  unfold Stage.after
  split
  · exact .acquires _
  · exact .starts _ _
  · exact .givesUp
  · exact .refused _
  · exact .counts _ _ _
  · exact .cancels _
  · exact .counts _ _ _
  · exact .leaves
  · exact .releases
  · exact .stays _ _

/-- What the calls of a worker have to do with its stage. -/
structure Record (past : List (AgentEvent Key)) : Prop where
  started : SessionStarted past -> stage past ≠ .queued ∧ stage past ≠ .holding
  cancelled : SessionStarted past -> stage past = .cancelled ∨ stage past = .released ->
    SessionCancelled past
  released : stage past = .released -> SlotReleased past

theorem record_nil : Record ([] : List (AgentEvent Key)) where
  started := by simp [SessionStarted]
  cancelled := by simp [SessionStarted]
  released := by simp [stage]

theorem sessionStarted_snoc
    {event : AgentEvent Key} :
    SessionStarted (past ++ [event]) ↔ SessionStarted past ∨
      ∃ request requireConfirmation, event = ⟨.sessionStart request requireConfirmation, ()⟩ := by
  simp only [SessionStarted, List.mem_append, List.mem_singleton, exists_or, eq_comm]

theorem Record.snoc
    (record : Record past)
    {event : AgentEvent Key}
    (allowed : (workerContract evaluation rounds).allows past event.call) :
    Record (past ++ [event]) := by
  have moves := (stage past).moves event
  by_cases starts : ∃ request requireConfirmation,
      event = ⟨.sessionStart request requireConfirmation, ()⟩
  · obtain ⟨request, requireConfirmation, rfl⟩ := starts
    have running : stage (past ++ [⟨.sessionStart request requireConfirmation, ()⟩]) =
        .running 0 := by
      simp [allowed.1, Stage.after]
    exact ⟨fun _ => by simp [running], fun _ => by simp [running], by simp [running]⟩
  · have earlier (started : SessionStarted (past ++ [event])) : SessionStarted past :=
      (sessionStarted_snoc.mp started).resolve_right starts
    obtain ⟨recordStarted, recordCancelled, recordReleased⟩ := record
    refine ⟨fun started => ?_, fun started => ?_, ?_⟩
    · have known := recordStarted (earlier started)
      rw [stage_append]
      generalize stage past = before at known moves
      generalize before.after event = after at moves
      cases moves with
      | stays => exact known
      | acquires timeout => exact absurd rfl known.1
      | starts request requireConfirmation => exact absurd rfl known.2
      | counts before after => simp
      | refused calls => simp
      | cancels calls => simp
      | leaves => simp
      | givesUp => simp
      | releases => simp
    · have known := recordStarted (earlier started)
      have cancelled := recordCancelled (earlier started)
      rw [stage_append]
      intro done
      suffices SessionCancelled past ∨ event = ⟨.sessionCancel, ()⟩ by
        simpa [SessionCancelled, eq_comm] using this
      generalize stage past = before at known cancelled moves done
      generalize before.after event = after at moves done
      cases moves with
      | stays => exact .inl (cancelled done)
      | acquires timeout => exact absurd rfl known.1
      | starts request requireConfirmation => exact absurd rfl known.2
      | counts before after => simp at done
      | refused calls => simp at done
      | cancels calls => exact .inr rfl
      | leaves => exact .inr rfl
      | givesUp => exact absurd rfl known.2
      | releases => exact .inl (cancelled (.inl rfl))
    · rw [stage_append]
      intro done
      suffices SlotReleased past ∨ event = ⟨.slotSignal, ()⟩ by
        simpa [SlotReleased, eq_comm] using this
      generalize stage past = before at recordReleased moves done
      generalize before.after event = after at moves done
      cases moves with
      | stays => exact .inl (recordReleased done)
      | acquires timeout => cases done
      | starts request requireConfirmation => cases done
      | counts before after => cases done
      | refused calls => cases done
      | cancels calls => cases done
      | leaves => cases done
      | givesUp => exact .inr rfl
      | releases => exact .inr rfl

/-- The stage after a call of a worker with a session leaves room for fewer calls. -/
def Closer (before after : Stage) : Prop :=
  after.remaining + 1 ≤ before.remaining ∧ after ≠ .queued ∧ after ≠ .holding

theorem closer_of_counts
    {calls : Nat}
    (few : calls < 5)
    (stands : stage past = .running calls)
    {event : AgentEvent Key}
    (counts : (Stage.running calls).after event = .running (calls + 1)) :
    Closer (stage past) (stage (past ++ [event])) := by
  rw [stage_counts stands counts, stands]
  refine ⟨?_, by simp, by simp⟩
  simp only [Stage.remaining]
  omega

/-- While the session runs, looking at a clock or at the peer counts as a call. -/
theorem exists_running_of_mayCheck
    (known : stage past ≠ .queued ∧ stage past ≠ .holding)
    (mayCheck : (stage past).MayCheck) :
    ∃ calls < 5, stage past = .running calls := by
  cases stands : stage past with
  | queued => exact absurd stands known.1
  | holding => exact absurd stands known.2
  | running calls => exact ⟨calls, by rwa [stands] at mayCheck, rfl⟩
  | leaving => exact (stands ▸ mayCheck : Stage.MayCheck .leaving).elim
  | cancelled => exact (stands ▸ mayCheck : Stage.MayCheck .cancelled).elim
  | released => exact (stands ▸ mayCheck : Stage.MayCheck .released).elim

theorem closer_of_allowed
    {event : AgentEvent Key}
    (known : stage past ≠ .queued ∧ stage past ≠ .holding)
    (allowed : (workerContract evaluation rounds).allows past event.call)
    (flagged : event ≠ ⟨.lifetimeCancelled, false⟩) :
    Closer (stage past) (stage (past ++ [event])) := by
  obtain ⟨request, answer⟩ := event
  cases request with
  | uptimeNs =>
      obtain ⟨calls, few, stands⟩ := exists_running_of_mayCheck known allowed
      exact closer_of_counts few stands rfl
  | wallTimeMs =>
      obtain ⟨calls, few, stands⟩ := exists_running_of_mayCheck known allowed
      exact closer_of_counts few stands rfl
  | peek =>
      obtain ⟨calls, few, stands⟩ := exists_running_of_mayCheck known allowed
      exact closer_of_counts few stands rfl
  | cancelLifetime =>
      obtain ⟨calls, few, stands⟩ := exists_running_of_mayCheck known allowed
      exact closer_of_counts few stands rfl
  | resultValue =>
      obtain ⟨calls, few, stands⟩ := allowed
      exact closer_of_counts few stands rfl
  | readyWait timeout =>
      obtain ⟨calls, few, stands⟩ := allowed
      exact closer_of_counts few stands rfl
  | lifetimeCancelled =>
      rcases allowed with queued | holding | ⟨calls, few, stands⟩
      · exact absurd queued known.1
      · exact absurd holding known.2
      · cases answer with
        | false => exact absurd rfl flagged
        | true =>
            rw [stage_append, stands]
            refine ⟨?_, by simp [Stage.after], by simp [Stage.after]⟩
            simp only [Stage.after, Stage.remaining]
            omega
  | sessionCancel =>
      rw [stage_sessionCancel allowed]
      refine ⟨?_, by simp, by simp⟩
      rcases allowed with leaving | ⟨calls, few, running⟩
      · rw [leaving]
        exact Nat.le_refl 2
      · rw [running]
        simp only [Stage.remaining]
        omega
  | slotSignal =>
      rcases allowed with holding | cancelled
      · exact absurd holding known.2
      · rw [stage_append, cancelled]
        exact ⟨Nat.le_refl 1, by simp [Stage.after], by simp [Stage.after]⟩
  | slotWait timeout => exact absurd allowed known.1
  | makeSession => exact absurd allowed known.2
  | sessionStart request requireConfirmation => exact absurd allowed.1 known.2
  | poll interest timeout => exact allowed.elim
  | recv limit => exact allowed.elim
  | send bytes => exact allowed.elim
  | closeHandle => exact allowed.elim
  | isValidSignature publicKey signature message => exact allowed.elim
  | sign message => exact allowed.elim
  | limiterAllow request => exact allowed.elim

/-- A worker that can only find the flag of its lifetime set makes few more calls. -/
theorem length_le_remaining
    {rest : List (AgentEvent Key)}
    (known : stage past ≠ .queued ∧ stage past ≠ .holding)
    (allowed : ∀ before event after, rest = before ++ event :: after ->
      (workerContract evaluation rounds).allows (past ++ before) event.call)
    (flagged : ∀ event ∈ rest, event ≠ ⟨.lifetimeCancelled, false⟩) :
    rest.length ≤ (stage past).remaining := by
  induction rest generalizing past with
  | nil => exact Nat.zero_le _
  | cons event rest inductionHypothesis =>
      have first := allowed [] event rest rfl
      rw [List.append_nil] at first
      obtain ⟨fewer, stillKnown⟩ := closer_of_allowed known first (flagged event (by simp))
      have later := inductionHypothesis stillKnown
        (fun before next after split => by
          simpa using allowed (event :: before) next after (by rw [split]; rfl))
        (fun next member => flagged next (List.mem_cons_of_mem _ member))
      rw [List.length_cons]
      omega

/-- The flag of the lifetime has been set or seen set. -/
def Flagged (past : List (AgentEvent Key)) : Prop :=
  ⟨.lifetimeCancelled, true⟩ ∈ past ∨ ⟨.cancelLifetime, ()⟩ ∈ past

/-- A check that fails sets the flag, if it was not set already. -/
theorem flagged_of_error
    {lifetime : RequestLifetime}
    {trace : List (AgentEvent Key)}
    {error : Failure}
    (ended : Ends lifetime.check trace (.error error)) :
    Flagged trace := by
  rw [RequestLifetime.check, ends_perform_bind] at ended
  obtain ⟨cancelled, rest, rfl, ended⟩ := ended
  cases cancelled with
  | true => exact .inl (by simp)
  | false =>
      rw [if_neg (by simp), ends_attempt_bind] at ended
      obtain ⟨inspecting, second, outcome, rfl, _, ended⟩ := ended
      cases outcome with
      | ok _ => exact absurd ((ends_pure _ _ _).mp ended).2 (by simp)
      | error cause =>
          rw [ends_perform_bind] at ended
          obtain ⟨_, last, rfl, _⟩ := ended
          exact .inr (by simp)

/-- A check that passes has seen the flag clear. -/
theorem clear_of_ok
    {lifetime : RequestLifetime}
    {trace : List (AgentEvent Key)}
    (ended : Ends lifetime.check trace (.ok ())) :
    ⟨.lifetimeCancelled, false⟩ ∈ trace := by
  obtain ⟨now, wall, rfl, _⟩ := ends_lifetime_check_ok.mp ended
  simp

/-- The loop ends when it has seen a result. -/
theorem ends_awaitResult
    {lifetime : RequestLifetime}
    {left : Nat}
    {trace : List (AgentEvent Key)}
    (ended : Ends (awaitResult lifetime left) trace (.ok ())) :
    ∃ before seen, trace = before ++ [⟨.resultValue, some seen⟩] := by
  induction left generalizing trace with
  | zero => exact absurd ended (not_ends_exhausted _ _)
  | succ left inductionHypothesis =>
      rw [awaitResult, ends_perform_bind] at ended
      obtain ⟨value, rest, rfl, ended⟩ := ended
      cases value with
      | some seen =>
          obtain ⟨rfl, _⟩ := (ends_pure _ _ _).mp ended
          exact ⟨[], seen, rfl⟩
      | none =>
          rw [ends_bind_ok] at ended
          obtain ⟨checking, _, _, rfl, _, ended⟩ := ended
          rw [ends_perform_bind] at ended
          obtain ⟨_, _, rfl, ended⟩ := ended
          obtain ⟨before, seen, rfl⟩ := inductionHypothesis ended
          exact ⟨⟨.resultValue, none⟩ :: (checking ++ ⟨.readyWait 25, ()⟩ :: before), seen, by simp⟩

/-- An evaluation that returns a decision has found it in the result cell before and after a
check of the lifetime that passed. -/
theorem ends_evaluate_checked
    {trace : List (AgentEvent Key)}
    {decision : Decision}
    (ended : Ends (evaluate evaluation.request evaluation.requireConfirmation evaluation.lifetime
      rounds) trace (.ok decision)) :
    ∃ before seen check after,
      trace = before ++ ⟨.resultValue, some seen⟩ ::
        (check ++ ⟨.resultValue, some decision⟩ :: after) ∧
      Ends evaluation.lifetime.check check (.ok ()) := by
  rw [evaluate, ends_bind_ok] at ended
  obtain ⟨awaiting, _, _, rfl, _, ended⟩ := ended
  rw [ends_ensuring_ok] at ended
  obtain ⟨_, signalling, rfl, ended, _⟩ := ended
  rw [holdSlot, ends_bind_ok] at ended
  obtain ⟨checking, _, _, rfl, _, ended⟩ := ended
  rw [ends_perform_bind] at ended
  obtain ⟨_, _, rfl, ended⟩ := ended
  rw [ends_ensuring_ok] at ended
  obtain ⟨_, cancelling, rfl, ended, _⟩ := ended
  rw [runSession, ends_perform_bind] at ended
  obtain ⟨_, _, rfl, ended⟩ := ended
  rw [ends_bind_ok] at ended
  obtain ⟨waiting, _, _, rfl, waited, ended⟩ := ended
  rw [ends_bind_ok] at ended
  obtain ⟨check, _, _, rfl, checked, ended⟩ := ended
  rw [ends_perform_bind] at ended
  obtain ⟨value, _, rfl, ended⟩ := ended
  obtain ⟨before, seen, rfl⟩ := ends_awaitResult waited
  cases value with
  | none => exact absurd ((ends_fail _ _ _).mp ended).2 (by simp)
  | some found =>
      obtain ⟨rfl, equal⟩ := (ends_pure _ _ _).mp ended
      obtain rfl := Except.ok.inj equal
      refine ⟨awaiting ++ (checking ++ ⟨.makeSession, ()⟩ ::
        ⟨.sessionStart evaluation.request evaluation.requireConfirmation, ()⟩ :: before), seen, check,
        cancelling ++ signalling, by simp, checked⟩

end Worker

/-! ## Sessions -/

section Session

variable {evaluation : Evaluation} {past : List (SessionEvent Key)}

/-- The session has called its completion. -/
def Completed (past : List (SessionEvent Key)) : Prop :=
  ∃ decision, ⟨.complete decision, ()⟩ ∈ past

/-- The decisions with which the session has called its completion. -/
def completions (past : List (SessionEvent Key)) : List Decision :=
  past.filterMap fun
    | ⟨.complete decision, _⟩ => some decision
    | _ => none

/-- The session has set the flag of the lifetime or seen it set. -/
def Inactive (past : List (SessionEvent Key)) : Prop :=
  ⟨.lifetime .lifetimeCancelled, true⟩ ∈ past ∨ ⟨.lifetime .cancelLifetime, ()⟩ ∈ past

/-- An event of the lifetime as an event of a session. -/
def lifetimeEvent (event : AgentEvent Key) : SessionEvent Key :=
  ⟨.lifetime event.call, event.answer⟩

theorem ends_onLifetime
    {α : Type}
    {program : Routine Key α}
    {trace : List (SessionEvent Key)}
    {result : Except Failure α} :
    Ends (onLifetime program) trace result ↔
      ∃ inner, trace = inner.map lifetimeEvent ∧ Ends program inner result := by
  induction program generalizing trace with
  | done outcome =>
      simp only [onLifetime, ends_done]
      constructor
      · rintro ⟨rfl, rfl⟩
        exact ⟨[], rfl, rfl, rfl⟩
      · rintro ⟨_, rfl, rfl, rfl⟩
        exact ⟨rfl, rfl⟩
  | call request next inductionHypothesis =>
      simp only [onLifetime, ends_call]
      constructor
      · rintro ⟨answer, rest, rfl, ended⟩
        obtain ⟨inner, rfl, innerEnded⟩ := (inductionHypothesis answer).mp ended
        exact ⟨⟨request, answer⟩ :: inner, rfl, answer, inner, rfl, innerEnded⟩
      · rintro ⟨_, rfl, answer, inner, rfl, ended⟩
        exact ⟨answer, _, rfl, (inductionHypothesis answer).mpr ⟨inner, rfl, ended⟩⟩
  | exhausted => simp [onLifetime]

theorem inactive_of_error
    {lifetime : RequestLifetime}
    {trace : List (SessionEvent Key)}
    {error : Failure}
    (ended : Ends (onLifetime lifetime.check) trace (.error error)) :
    Inactive trace := by
  obtain ⟨inner, rfl, innerEnded⟩ := ends_onLifetime.mp ended
  rcases flagged_of_error innerEnded with seen | set
  · exact .inl (List.mem_map_of_mem seen)
  · exact .inr (List.mem_map_of_mem set)

theorem inactive_of_ends_isActive
    {lifetime : RequestLifetime}
    {trace : List (SessionEvent Key)}
    (ended : Ends (isActive lifetime) trace (.ok false)) :
    Inactive trace := by
  rw [isActive, ends_attempt_bind] at ended
  obtain ⟨checking, last, outcome, rfl, checked, ended⟩ := ended
  cases outcome with
  | ok _ => exact absurd ((ends_pure _ _ _).mp ended).2 (by simp)
  | error error =>
      obtain ⟨rfl, _⟩ := (ends_pure _ _ _).mp ended
      rw [List.append_nil]
      exact inactive_of_error checked

/-- The session has completed or left an inactive lifetime. -/
def Settled (past : List (SessionEvent Key)) : Prop :=
  Completed past ∨ Inactive past

theorem Settled.append
    (settled : Settled past)
    (before : List (SessionEvent Key)) :
    Settled (before ++ past) := by
  rcases settled with ⟨decision, member⟩ | seen | set
  · exact .inl ⟨decision, List.mem_append_right _ member⟩
  · exact .inr (.inl (List.mem_append_right _ seen))
  · exact .inr (.inr (List.mem_append_right _ set))

theorem settled_of_ends_complete
    {trace : List (SessionEvent Key)}
    {decision : Decision}
    {result : Except Failure Unit}
    (ended : Ends (perform (SessionCall.complete decision)) trace result) :
    Settled trace := by
  obtain ⟨_, rfl, _⟩ := (ends_perform _ _ _).mp ended
  exact .inl ⟨decision, by simp⟩

theorem settled_of_ends_evaluatePolicy
    {request : AuthRequestBody}
    {lifetime : RequestLifetime}
    {trace : List (SessionEvent Key)}
    (ended : Ends (evaluatePolicy request lifetime) trace (.ok ())) :
    Settled trace := by
  rw [evaluatePolicy, ends_perform_bind] at ended
  obtain ⟨available, rest, rfl, ended⟩ := ended
  rw [← List.singleton_append]
  apply Settled.append
  cases available with
  | false => exact settled_of_ends_complete ended
  | true =>
      rw [if_pos rfl, ends_bind_ok] at ended
      obtain ⟨checking, last, active, rfl, checked, ended⟩ := ended
      cases active with
      | false =>
          obtain ⟨rfl, _⟩ := (ends_pure _ _ _).mp ended
          rw [List.append_nil]
          exact .inr (inactive_of_ends_isActive checked)
      | true =>
          rw [if_pos rfl, ends_perform_bind] at ended
          obtain ⟨reply, final, rfl, ended⟩ := ended
          rw [← List.singleton_append]
          exact ((settled_of_ends_complete ended).append _).append _

/-- A session that asks the user begins with its block, and either completes or leaves an
inactive lifetime. -/
theorem settled_of_ends_localAuthenticationSession
    {request : AuthRequestBody}
    {requireConfirmation : Bool}
    {lifetime : RequestLifetime}
    {trace : List (SessionEvent Key)}
    (ended : Ends (localAuthenticationSession request requireConfirmation lifetime) trace
      (.ok ())) :
    ⟨.begin, ()⟩ ∈ trace ∧ Settled trace := by
  rw [localAuthenticationSession, ends_perform_bind] at ended
  obtain ⟨_, rest, rfl, ended⟩ := ended
  refine ⟨by simp, ?_⟩
  rw [← List.singleton_append]
  apply Settled.append
  rw [ends_bind_ok] at ended
  obtain ⟨checking, later, active, rfl, checked, ended⟩ := ended
  cases active with
  | false =>
      obtain ⟨rfl, _⟩ := (ends_pure _ _ _).mp ended
      rw [List.append_nil]
      exact .inr (inactive_of_ends_isActive checked)
  | true =>
      apply Settled.append
      rw [if_pos rfl, ends_bind_ok] at ended
      obtain ⟨confirming, later, refused, rfl, _, ended⟩ := ended
      apply Settled.append
      cases refused with
      | true => exact settled_of_ends_complete ended
      | false =>
          rw [if_neg (by simp), ends_bind_ok] at ended
          obtain ⟨checking, last, stillActive, rfl, checked, ended⟩ := ended
          cases stillActive with
          | false =>
              obtain ⟨rfl, _⟩ := (ends_pure _ _ _).mp ended
              rw [List.append_nil]
              exact .inr (inactive_of_ends_isActive checked)
          | true => exact (settled_of_ends_evaluatePolicy ended).append _

end Session

/-! ## A binary semaphore -/

/-- Either the slot is free and nobody holds it, or exactly one holds it. -/
def Exclusive {Worker : Type} (slots : Nat) (holders : Worker -> Prop) : Prop :=
  (slots = 1 ∧ ∀ worker, ¬holders worker) ∨
    (slots = 0 ∧ ∃ holder, ∀ worker, holders worker ↔ worker = holder)

section Semaphore

variable {Worker : Type} {slots : Nat} {before after : Worker -> Prop}

theorem Exclusive.unique
    (exclusive : Exclusive slots before)
    {first second : Worker}
    (firstHolds : before first)
    (secondHolds : before second) :
    first = second := by
  rcases exclusive with ⟨_, none⟩ | ⟨_, holder, only⟩
  · exact absurd firstHolds (none first)
  · exact ((only first).mp firstHolds).trans ((only second).mp secondHolds).symm

theorem Exclusive.free
    (exclusive : Exclusive slots before)
    (available : 0 < slots)
    (worker : Worker) :
    ¬before worker := by
  rcases exclusive with ⟨_, none⟩ | ⟨empty, _⟩
  · exact none worker
  · omega

theorem Exclusive.congr
    (exclusive : Exclusive slots before)
    (same : ∀ worker, after worker ↔ before worker) :
    Exclusive slots after := by
  simpa only [Exclusive, same] using exclusive

theorem Exclusive.acquire
    (exclusive : Exclusive slots before)
    (available : 0 < slots)
    {actor : Worker}
    (acquired : ∀ worker, after worker ↔ before worker ∨ worker = actor) :
    Exclusive (slots - 1) after := by
  refine .inr ⟨?_, actor, fun worker => ?_⟩
  · rcases exclusive with ⟨one, _⟩ | ⟨empty, _⟩
    · omega
    · omega
  · rw [acquired]
    exact or_iff_right (exclusive.free available worker)

theorem Exclusive.release
    (exclusive : Exclusive slots before)
    {actor : Worker}
    (held : before actor)
    (released : ∀ worker, after worker ↔ before worker ∧ worker ≠ actor) :
    Exclusive (slots + 1) after := by
  rcases exclusive with ⟨_, none⟩ | ⟨empty, holder, only⟩
  · exact absurd held (none actor)
  · refine .inl ⟨by omega, fun worker holds => ?_⟩
    obtain ⟨heldBefore, different⟩ := (released worker).mp holds
    exact different (((only worker).mp heldBefore).trans ((only actor).mp held).symm)

end Semaphore

/-! ## Workers and sessions together -/

section Together

variable {Worker : Type} [DecidableEq Worker]
variable {evaluations : Worker -> Evaluation} {rounds : Nat}
variable {sessions : Worker -> SessionRoutine Key Unit}

/-- An answered call of a worker or a session. -/
abbrev CoordinatorEntry (Key Worker : Type) :=
  Entry (fun party : Party Worker => party.Call Key) Party.Answer

/-- What remains of the workers and sessions. -/
abbrev CoordinatorPool (Key Worker : Type) :=
  Pool (fun party : Party Worker => party.Call Key) Party.Answer (fun _ => Failure) Party.Value

variable {history : List (CoordinatorEntry Key Worker)} {pool : CoordinatorPool Key Worker}
variable {world : World Worker}

/-- What the world has to do with the calls so far. -/
structure CoordinatorInvariant (history : List (CoordinatorEntry Key Worker))
    (world : World Worker) : Prop where
  exclusive : Exclusive world.slots fun worker =>
    (stage (traceOf (Party.worker worker) history)).HoldsSlot
  record : ∀ worker, Record (traceOf (Party.worker worker) history)
  results : ∀ worker, world.results worker =
    (completions (traceOf (Party.session worker) history)).head?
  started : ∀ worker, world.started worker = true ->
    SessionStarted (traceOf (Party.worker worker) history)
  begun : ∀ worker, ⟨.begin, ()⟩ ∈ traceOf (Party.session worker) history ->
    SessionStarted (traceOf (Party.worker worker) history)
  cancelled : ∀ worker, Flagged (traceOf (Party.worker worker) history) ∨
    Inactive (traceOf (Party.session worker) history) -> world.cancelled worker = true

variable {after : World Worker} {worker : Worker}

/-- The steps of a worker. -/
inductive WorkerStep (world : World Worker) (worker : Worker) :
    AgentEvent Key -> World Worker -> Prop
  | quiet (event : AgentEvent Key) :
      (Flagged [event] -> world.cancelled worker = true) ->
      (∀ timeout, event ≠ ⟨.slotWait timeout, true⟩) ->
      event ≠ ⟨.slotSignal, ()⟩ ->
      WorkerStep world worker event world
  | cancels : WorkerStep world worker ⟨.cancelLifetime, ()⟩ (world.cancel worker)
  | acquires (timeout : Nat) :
      0 < world.slots ->
      WorkerStep world worker ⟨.slotWait timeout, true⟩ { world with slots := world.slots - 1 }
  | releases : WorkerStep world worker ⟨.slotSignal, ()⟩ { world with slots := world.slots + 1 }
  | starts (request : AuthRequestBody) (requireConfirmation : Bool) :
      WorkerStep world worker ⟨.sessionStart request requireConfirmation, ()⟩ (world.start worker)

/-- The steps of a session. -/
inductive SessionStep (world : World Worker) (worker : Worker) :
    SessionEvent Key -> World Worker -> Prop
  | quiet (event : SessionEvent Key) :
      (Inactive [event] -> world.cancelled worker = true) ->
      event ≠ ⟨.begin, ()⟩ ->
      completions [event] = [] ->
      SessionStep world worker event world
  | begins : world.started worker = true -> SessionStep world worker ⟨.begin, ()⟩ world
  | cancels : SessionStep world worker ⟨.lifetime .cancelLifetime, ()⟩ (world.cancel worker)
  | completes (decision : Decision) :
      SessionStep world worker ⟨.complete decision, ()⟩ (world.complete worker decision)

/-- The steps of a lifetime. -/
theorem servesLifetime_cases
    {request : Agent.Call Key}
    {answer : request.Answer}
    (served : world.ServesLifetime worker request answer after) :
    IsCheck request ∧
      (((⟨request, answer⟩ : AgentEvent Key) = ⟨.cancelLifetime, ()⟩ ∧
          after = world.cancel worker) ∨
        ((Flagged [⟨request, answer⟩] -> world.cancelled worker = true) ∧ after = world)) := by
  cases request with
  | lifetimeCancelled =>
      obtain ⟨read, rfl⟩ := served
      refine ⟨trivial, .inr ⟨fun flagged => ?_, rfl⟩⟩
      simp only [Flagged, List.mem_singleton] at flagged
      rcases flagged with equal | equal
      · cases equal
        exact read.symm
      · cases equal
  | cancelLifetime => exact ⟨trivial, .inl ⟨rfl, served⟩⟩
  | uptimeNs => exact ⟨trivial, .inr ⟨by simp [Flagged], served⟩⟩
  | wallTimeMs => exact ⟨trivial, .inr ⟨by simp [Flagged], served⟩⟩
  | peek => exact ⟨trivial, .inr ⟨by simp [Flagged], served⟩⟩
  | _ => exact served.elim

theorem workerStep_of_servesLifetime
    {request : Agent.Call Key}
    {answer : request.Answer}
    (served : world.ServesLifetime worker request answer after) :
    WorkerStep world worker ⟨request, answer⟩ after := by
  obtain ⟨checking, ⟨equal, rfl⟩ | ⟨seen, rfl⟩⟩ := servesLifetime_cases served
  · rw [equal]
    exact .cancels
  · refine .quiet _ seen (fun timeout equal => ?_) fun equal => ?_
    · cases equal
      exact checking
    · cases equal
      exact checking

theorem workerStep_of_serves
    {request : Agent.Call Key}
    {answer : request.Answer}
    (served : world.ServesWorker worker request answer after) :
    WorkerStep world worker ⟨request, answer⟩ after := by
  cases request with
  | slotWait timeout =>
      cases answer with
      | true =>
          obtain ⟨available, rfl⟩ := served
          exact .acquires timeout available
      | false =>
          obtain rfl := served
          exact .quiet _ (by simp [Flagged]) (by simp) (by simp)
  | slotSignal =>
      obtain rfl := served
      exact .releases
  | sessionStart request requireConfirmation =>
      obtain rfl := served
      exact .starts request requireConfirmation
  | resultValue =>
      obtain rfl := served.2
      exact .quiet _ (by simp [Flagged]) (by simp) (by simp)
  | makeSession | readyWait | sessionCancel =>
      obtain rfl := served
      exact .quiet _ (by simp [Flagged]) (by simp) (by simp)
  | _ => exact workerStep_of_servesLifetime served

theorem sessionStep_of_serves
    {request : SessionCall Key}
    {answer : request.Answer}
    (served : world.ServesSession worker request answer after) :
    SessionStep world worker ⟨request, answer⟩ after := by
  cases request with
  | begin =>
      obtain ⟨started, rfl⟩ := served
      exact .begins started
  | lifetime request =>
      obtain ⟨_, ⟨equal, rfl⟩ | ⟨seen, rfl⟩⟩ := servesLifetime_cases served
      · cases equal
        exact .cancels
      · refine .quiet _ (fun inactive => seen ?_) (by simp) rfl
        simp only [Inactive, List.mem_singleton] at inactive
        rcases inactive with equal | equal
        · cases equal
          exact .inl (by simp)
        · cases equal
          exact .inr (by simp)
  | complete decision =>
      obtain rfl := served
      exact .completes decision
  | runModal | canEvaluatePolicy | evaluatePolicy =>
      obtain rfl := served
      exact .quiet _ (by simp [Inactive]) (by simp) rfl

theorem workerTrace_snoc
    (actor other : Worker)
    (event : AgentEvent Key) :
    traceOf (Party.worker other) (history ++ [⟨Party.worker actor, event⟩]) =
      if other = actor then traceOf (Party.worker actor) history ++ [event]
      else traceOf (Party.worker other) history := by
  split
  · rename_i same
    subst same
    rw [traceOf_append, traceOf_own]
  · rename_i different
    rw [traceOf_append, traceOf_other (by simpa using Ne.symm different), List.append_nil]

theorem sessionTrace_snoc
    (actor other : Worker)
    (event : SessionEvent Key) :
    traceOf (Party.session other) (history ++ [⟨Party.session actor, event⟩]) =
      if other = actor then traceOf (Party.session actor) history ++ [event]
      else traceOf (Party.session other) history := by
  split
  · rename_i same
    subst same
    rw [traceOf_append, traceOf_own]
  · rename_i different
    rw [traceOf_append, traceOf_other (by simpa using Ne.symm different), List.append_nil]

@[simp] theorem sessionTrace_of_worker
    (actor other : Worker)
    (event : AgentEvent Key) :
    traceOf (Party.session other) (history ++ [⟨Party.worker actor, event⟩]) =
      traceOf (Party.session other) history := by
  rw [traceOf_append, traceOf_other (by simp), List.append_nil]

@[simp] theorem workerTrace_of_session
    (actor other : Worker)
    (event : SessionEvent Key) :
    traceOf (Party.worker other) (history ++ [⟨Party.session actor, event⟩]) =
      traceOf (Party.worker other) history := by
  rw [traceOf_append, traceOf_other (by simp), List.append_nil]

/-- A call other than taking or releasing the slot leaves it with its holder. -/
theorem holdsSlot_of_quiet
    {past : List (AgentEvent Key)}
    {event : AgentEvent Key}
    (takes : ∀ timeout, event ≠ ⟨.slotWait timeout, true⟩)
    (releases : event ≠ ⟨.slotSignal, ()⟩) :
    (stage (past ++ [event])).HoldsSlot ↔ (stage past).HoldsSlot := by
  have moves := (stage past).moves event
  rw [stage_append]
  generalize (stage past).after event = later at moves
  generalize stage past = before at moves
  cases moves with
  | stays => exact Iff.rfl
  | acquires timeout => exact absurd rfl (takes timeout)
  | starts request requireConfirmation => exact Iff.rfl
  | counts before after => exact Iff.rfl
  | refused calls => exact Iff.rfl
  | cancels calls => exact Iff.rfl
  | leaves => exact Iff.rfl
  | givesUp => exact absurd rfl releases
  | releases => exact absurd rfl releases

/-- The slot and its holders after a step of a worker. -/
theorem exclusive_of_workerStep
    {event : AgentEvent Key}
    (exclusive : Exclusive world.slots fun other =>
      (stage (traceOf (Party.worker other) history)).HoldsSlot)
    (allowed : (workerContract (evaluations worker) rounds).allows
      (traceOf (Party.worker worker) history) event.call)
    (step : WorkerStep world worker event after) :
    Exclusive after.slots fun other =>
      (stage (traceOf (Party.worker other)
        (history ++ [⟨Party.worker worker, event⟩]))).HoldsSlot := by
  have quiet
      (takes : ∀ timeout, event ≠ ⟨.slotWait timeout, true⟩)
      (releases : event ≠ ⟨.slotSignal, ()⟩) (other : Worker) :
      (stage (traceOf (Party.worker other)
        (history ++ [⟨Party.worker worker, event⟩]))).HoldsSlot ↔
      (stage (traceOf (Party.worker other) history)).HoldsSlot := by
    rw [workerTrace_snoc]
    split
    · rename_i same
      subst same
      exact holdsSlot_of_quiet takes releases
    · exact Iff.rfl
  cases step with
  | quiet _ takes releases => exact exclusive.congr (quiet ‹_› ‹_›)
  | cancels => exact exclusive.congr (quiet (by simp) (by simp))
  | starts request requireConfirmation => exact exclusive.congr (quiet (by simp) (by simp))
  | acquires timeout available =>
      apply exclusive.acquire available
      intro other
      change _ ↔ _ ∨ other = worker
      rw [workerTrace_snoc]
      split
      · rename_i same
        subst same
        rw [stage_append, show stage _ = _ from allowed]
        simp [Stage.after, Stage.HoldsSlot]
      · rename_i different
        exact (or_iff_left different).symm
  | releases =>
      refine Exclusive.release exclusive (show Stage.HoldsSlot (stage (traceOf (Party.worker worker)
        history)) from ?_) fun other => ?_
      · rcases allowed with holding | cancelled
        · rw [holding]
          trivial
        · rw [cancelled]
          trivial
      · rw [workerTrace_snoc]
        split
        · rename_i same
          subst same
          rw [stage_append]
          rcases allowed with holding | cancelled
          · simp [holding, Stage.after, Stage.HoldsSlot]
          · simp [cancelled, Stage.after, Stage.HoldsSlot]
        · rename_i different
          exact (and_iff_left different).symm

/-- Flags stay set. -/
theorem cancelled_of_workerStep
    {event : AgentEvent Key}
    (step : WorkerStep world worker event after)
    {other : Worker}
    (set : world.cancelled other = true) :
    after.cancelled other = true := by
  cases step with
  | cancels =>
      by_cases same : other = worker
      · subst same
        exact Function.update_self ..
      · exact (Function.update_of_ne same _ _).trans set
  | quiet => exact set
  | acquires => exact set
  | releases => exact set
  | starts => exact set

theorem cancelled_of_sessionStep
    {event : SessionEvent Key}
    (step : SessionStep world worker event after)
    {other : Worker}
    (set : world.cancelled other = true) :
    after.cancelled other = true := by
  cases step with
  | cancels =>
      by_cases same : other = worker
      · subst same
        exact Function.update_self ..
      · exact (Function.update_of_ne same _ _).trans set
  | quiet => exact set
  | begins => exact set
  | completes => exact set

theorem flagged_append
    {first second : List (AgentEvent Key)} :
    Flagged (first ++ second) ↔ Flagged first ∨ Flagged second := by
  simp only [Flagged, List.mem_append]
  tauto

theorem inactive_append
    {first second : List (SessionEvent Key)} :
    Inactive (first ++ second) ↔ Inactive first ∨ Inactive second := by
  simp only [Inactive, List.mem_append]
  tauto

@[simp] theorem completions_append (first second : List (SessionEvent Key)) :
    completions (first ++ second) = completions first ++ completions second := by
  simp [completions]

theorem CoordinatorInvariant.worker_step
    {event : AgentEvent Key}
    (invariant : CoordinatorInvariant history world)
    (allowed : (workerContract (evaluations worker) rounds).allows
      (traceOf (Party.worker worker) history) event.call)
    (step : WorkerStep world worker event after) :
    CoordinatorInvariant (history ++ [⟨Party.worker worker, event⟩]) after := by
  have grown {other : Worker}
      (started : SessionStarted (traceOf (Party.worker other) history)) :
      SessionStarted (traceOf (Party.worker other)
        (history ++ [⟨Party.worker worker, event⟩])) := by
    obtain ⟨request, requireConfirmation, member⟩ := started
    rw [traceOf_append]
    exact ⟨request, requireConfirmation, List.mem_append_left _ member⟩
  refine ⟨exclusive_of_workerStep invariant.exclusive allowed step, ?_, ?_, ?_, ?_, ?_⟩
  · intro other
    rw [workerTrace_snoc]
    split
    · exact (invariant.record worker).snoc allowed
    · exact invariant.record other
  · intro other
    rw [sessionTrace_of_worker, ← invariant.results other]
    cases step <;> rfl
  · intro other started
    cases step with
    | starts request requireConfirmation =>
        by_cases same : other = worker
        · subst same
          rw [workerTrace_snoc, if_pos rfl]
          exact sessionStarted_snoc.mpr (.inr ⟨request, requireConfirmation, rfl⟩)
        · exact grown (invariant.started other ((Function.update_of_ne same _ _).symm.trans started))
    | quiet => exact grown (invariant.started other started)
    | cancels => exact grown (invariant.started other started)
    | acquires => exact grown (invariant.started other started)
    | releases => exact grown (invariant.started other started)
  · intro other member
    rw [sessionTrace_of_worker] at member
    exact grown (invariant.begun other member)
  · intro other
    rw [sessionTrace_of_worker, workerTrace_snoc]
    rintro (flagged | inactive)
    · split at flagged
      · rename_i same
        subst same
        rcases flagged_append.mp flagged with earlier | now
        · exact cancelled_of_workerStep step (invariant.cancelled other (.inl earlier))
        · cases step with
          | cancels => exact Function.update_self ..
          | quiet event seen => exact seen now
          | acquires => simp [Flagged] at now
          | releases => simp [Flagged] at now
          | starts => simp [Flagged] at now
      · exact cancelled_of_workerStep step (invariant.cancelled other (.inl flagged))
    · exact cancelled_of_workerStep step (invariant.cancelled other (.inr inactive))

theorem CoordinatorInvariant.session_step
    {event : SessionEvent Key}
    (invariant : CoordinatorInvariant history world)
    (step : SessionStep world worker event after) :
    CoordinatorInvariant (history ++ [⟨Party.session worker, event⟩]) after := by
  have slots : after.slots = world.slots := by
    cases step <;> rfl
  have started : after.started = world.started := by
    cases step <;> rfl
  refine ⟨?_, ?_, ?_, ?_, ?_, ?_⟩
  · simpa only [workerTrace_of_session, slots] using invariant.exclusive
  · intro other
    rw [workerTrace_of_session]
    exact invariant.record other
  · intro other
    rw [sessionTrace_snoc]
    have known := invariant.results other
    split
    · rename_i same
      subst same
      rw [completions_append]
      cases step with
      | quiet event seen begins none => rw [none, List.append_nil, known]
      | begins => exact known.trans (congrArg _ (List.append_nil _).symm)
      | cancels => exact known.trans (congrArg _ (List.append_nil _).symm)
      | completes decision =>
          change Function.update _ _ _ _ = _
          rw [Function.update_self, known, List.head?_append]
          change _ = Option.or _ (some decision)
          generalize (completions (traceOf (Party.session other) history)).head? = first
          cases first with
          | none => rfl
          | some earlier => rfl
    · rename_i different
      rw [← known]
      cases step with
      | quiet => rfl
      | begins => rfl
      | cancels => rfl
      | completes decision => exact Function.update_of_ne different _ _
  · intro other set
    rw [workerTrace_of_session]
    exact invariant.started other (started ▸ set)
  · intro other
    rw [sessionTrace_snoc, workerTrace_of_session]
    split
    · rename_i same
      subst same
      intro member
      rcases List.mem_append.mp member with earlier | now
      · exact invariant.begun other earlier
      · cases step with
        | begins set => exact invariant.started other set
        | quiet event seen begins => exact absurd (List.mem_singleton.mp now).symm begins
        | cancels => simp at now
        | completes => simp at now
    · exact invariant.begun other
  · intro other
    rw [sessionTrace_snoc, workerTrace_of_session]
    rintro (flagged | inactive)
    · exact cancelled_of_sessionStep step (invariant.cancelled other (.inl flagged))
    · split at inactive
      · rename_i same
        subst same
        rcases inactive_append.mp inactive with earlier | now
        · exact cancelled_of_sessionStep step (invariant.cancelled other (.inr earlier))
        · cases step with
          | cancels => exact Function.update_self ..
          | quiet event seen => exact seen now
          | begins => simp [Inactive] at now
          | completes => simp [Inactive] at now
      · exact cancelled_of_sessionStep step (invariant.cancelled other (.inr inactive))

/-- What remains of a worker meets its contract. -/
theorem worker_meets
    (run : (coordinator Key Worker).Run (threads evaluations rounds sessions) World.initial history
      pool world)
    (worker : Worker) :
    (pool (.worker worker)).Meets (workerContract (evaluations worker) rounds)
      (traceOf (Party.worker worker) history) Left := by
  apply run.meets (Party.worker worker)
  · exact meets_evaluate (evaluations worker) rounds
  · exact fun _ _ _ _ => trivial

theorem coordinatorInvariant_of_run
    (run : (coordinator Key Worker).Run (threads evaluations rounds sessions) World.initial history
      pool world) :
    CoordinatorInvariant history world := by
  induction run with
  | start =>
      refine ⟨.inl ⟨rfl, ?_⟩, fun worker => record_nil, fun worker => rfl, ?_, ?_, ?_⟩
      · simp [stage, Stage.HoldsSlot]
      · simp [World.initial]
      · simp
      · simp [Flagged, Inactive]
  | @step history pool world after party request next answer run current served
      inductionHypothesis =>
      cases party with
      | worker worker =>
          have meets := worker_meets run worker
          rw [current] at meets
          exact inductionHypothesis.worker_step meets.1 (workerStep_of_serves served)
      | session worker => exact inductionHypothesis.session_step (sessionStep_of_serves served)
  | drift run drifted inductionHypothesis =>
      obtain ⟨worker, rfl⟩ := drifted
      obtain ⟨exclusive, record, results, started, begun, cancelled⟩ := inductionHypothesis
      refine ⟨exclusive, record, results, started, begun, fun other flagged => ?_⟩
      exact cancelled_of_workerStep (WorkerStep.cancels : WorkerStep _ worker (_ : AgentEvent Key) _)
        (cancelled other flagged)

/-- Once set, a flag is seen set by everyone. -/
theorem clear_of_cancelled
    {programs : CoordinatorPool Key Worker}
    {start : World Worker}
    (run : (coordinator Key Worker).Run programs start history pool world)
    (set : start.cancelled worker = true) :
    world.cancelled worker = true ∧
      ⟨.lifetimeCancelled, false⟩ ∉ traceOf (Party.worker worker) history ∧
      ⟨.lifetime .lifetimeCancelled, false⟩ ∉ traceOf (Party.session worker) history := by
  induction run with
  | start => exact ⟨set, by simp, by simp⟩
  | @step history pool world after party request next answer run current served
      inductionHypothesis =>
      obtain ⟨still, workerSees, sessionSees⟩ := inductionHypothesis
      cases party with
      | worker actor =>
          refine ⟨cancelled_of_workerStep (workerStep_of_serves served) still, ?_, ?_⟩
          · rw [workerTrace_snoc]
            split
            · rename_i same
              subst same
              intro member
              rcases List.mem_append.mp member with earlier | now
              · exact workerSees earlier
              · cases List.mem_singleton.mp now
                exact absurd (served.1.trans still) (by simp)
            · exact workerSees
          · rw [sessionTrace_of_worker]
            exact sessionSees
      | session actor =>
          refine ⟨cancelled_of_sessionStep (sessionStep_of_serves served) still, ?_, ?_⟩
          · rw [workerTrace_of_session]
            exact workerSees
          · rw [sessionTrace_snoc]
            split
            · rename_i same
              subst same
              intro member
              rcases List.mem_append.mp member with earlier | now
              · exact sessionSees earlier
              · cases List.mem_singleton.mp now
                exact absurd (served.1.trans still) (by simp)
            · exact sessionSees
  | drift run drifted inductionHypothesis =>
      obtain ⟨still, sees⟩ := inductionHypothesis
      obtain ⟨other, rfl⟩ := drifted
      exact ⟨cancelled_of_workerStep (WorkerStep.cancels : WorkerStep _ other (_ : AgentEvent Key) _)
        still, sees⟩

/-! ## The discipline -/

/-- The session of the worker runs. -/
def SessionRuns (worker : Worker) (history : List (CoordinatorEntry Key Worker)) : Prop :=
  SessionStarted (traceOf (Party.worker worker) history) ∧
    ¬SessionCancelled (traceOf (Party.worker worker) history)

/-- The worker or its session has checked the lifetime, and the check failed. -/
def CheckFailed (lifetime : RequestLifetime) (worker : Worker)
    (history : List (CoordinatorEntry Key Worker)) : Prop :=
  (∃ check error, check <:+: traceOf (Party.worker worker) history ∧
    Ends lifetime.check check (.error error)) ∨
  ∃ check error, check <:+: traceOf (Party.session worker) history ∧
    Ends (onLifetime lifetime.check) check (.error error)

/-- No check of the lifetime by the worker or its session passes. -/
def NoCheckPasses (lifetime : RequestLifetime) (worker : Worker)
    (history : List (CoordinatorEntry Key Worker)) : Prop :=
  (∀ check, check <:+: traceOf (Party.worker worker) history ->
    ¬Ends lifetime.check check (.ok ())) ∧
  ∀ check, check <:+: traceOf (Party.session worker) history ->
    ¬Ends (onLifetime lifetime.check) check (.ok ())

/-- The history without the calls of one session. -/
def withoutSession (worker : Worker) (history : List (CoordinatorEntry Key Worker)) :
    List (CoordinatorEntry Key Worker) :=
  history.filter fun entry => entry.thread ≠ .session worker

/-- The discipline of the authentication slot in a run. -/
structure SlotDiscipline (evaluations : Worker -> Evaluation) (rounds : Nat)
    (sessions : Worker -> SessionRoutine Key Unit) (history : List (CoordinatorEntry Key Worker))
    (pool : CoordinatorPool Key Worker) : Prop where
  /-- One session at a time. -/
  exclusive : ∀ first second, SessionRuns first history -> SessionRuns second history ->
    first = second
  /-- No session runs when the slot is handed to a worker. -/
  handover : ∀ before worker timeout after,
    history = before ++ ⟨.worker worker, ⟨.slotWait timeout, true⟩⟩ :: after ->
    ∀ other, ¬SessionRuns other before
  /-- A returned decision is the first completion of the worker's own session, and a check of
  the lifetime has passed since. -/
  returned : ∀ worker decision, pool (.worker worker) = .done (.ok decision) ->
    ∃ before after, history = before ++ ⟨.session worker, ⟨.complete decision, ()⟩⟩ :: after ∧
      ¬Completed (traceOf (Party.session worker) before) ∧
      ∃ check, check <:+: traceOf (Party.worker worker) after ∧
        Ends (evaluations worker).lifetime.check check (.ok ())
  /-- After a check of a lifetime has failed, none passes. -/
  permanent : ∀ worker before after, history = before ++ after ->
    CheckFailed (evaluations worker).lifetime worker before ->
    NoCheckPasses (evaluations worker).lifetime worker after
  /-- What a session does after its worker has left can be left out. -/
  late : ∀ worker before after result, history = before ++ after ->
    Ends (threads evaluations rounds sessions (.worker worker))
      (traceOf (Party.worker worker) before) result ->
    ∃ pool' world', (coordinator Key Worker).Run (threads evaluations rounds sessions)
        World.initial (before ++ withoutSession worker after) pool' world' ∧
      ∀ party, party ≠ .session worker -> pool' party = pool party
  /-- A session that ends without a completion leaves an inactive lifetime: no check passes any
  more, and the worker fails and gives the slot back within a few calls. -/
  dropped : ∀ worker before after,
    sessions worker = localAuthenticationSession (evaluations worker).request
      (evaluations worker).requireConfirmation (evaluations worker).lifetime ->
    history = before ++ after ->
    Ends (sessions worker) (traceOf (Party.session worker) before) (.ok ()) ->
    ¬Completed (traceOf (Party.session worker) before) ->
    NoCheckPasses (evaluations worker).lifetime worker after ∧
      (traceOf (Party.worker worker) after).length ≤ 8 ∧
      (∀ result, pool (.worker worker) = .done result ->
        (∃ error, result = .error error) ∧
          SlotReleased (traceOf (Party.worker worker) history)) ∧
      (pool (.worker worker) = .exhausted -> rounds ≤ waits (traceOf (Party.worker worker) history))

theorem noCheckPasses_of_clear
    {lifetime : RequestLifetime}
    (workerSees : ⟨.lifetimeCancelled, false⟩ ∉ traceOf (Party.worker worker) history)
    (sessionSees :
      ⟨.lifetime .lifetimeCancelled, false⟩ ∉ traceOf (Party.session worker) history) :
    NoCheckPasses lifetime worker history := by
  refine ⟨fun check infix' ended => ?_, fun check infix' ended => ?_⟩
  · exact workerSees (infix'.subset (clear_of_ok ended))
  · obtain ⟨inner, rfl, innerEnded⟩ := ends_onLifetime.mp ended
    exact sessionSees (infix'.subset (List.mem_map_of_mem (clear_of_ok innerEnded)))

/-! ## Sessions whose worker has left -/

/-- The worlds differ at most in what belongs to one worker. -/
structure Agree (worker : Worker) (left right : World Worker) : Prop where
  slots : left.slots = right.slots
  cancelled : ∀ other, other ≠ worker -> left.cancelled other = right.cancelled other
  started : ∀ other, other ≠ worker -> left.started other = right.started other
  results : ∀ other, other ≠ worker -> left.results other = right.results other

omit [DecidableEq Worker] in
theorem Agree.refl (world : World Worker) : Agree worker world world :=
  ⟨rfl, fun _ _ => rfl, fun _ _ => rfl, fun _ _ => rfl⟩

variable {left right : World Worker} {actor : Worker}

theorem update_agree
    {α : Type}
    {first second : Worker -> α}
    (same : ∀ other, other ≠ worker -> first other = second other)
    (value : α)
    (other : Worker)
    (different : other ≠ worker) :
    Function.update first actor value other = Function.update second actor value other := by
  by_cases own : other = actor
  · subst own
    rw [Function.update_self, Function.update_self]
  · rw [Function.update_of_ne own, Function.update_of_ne own, same other different]

theorem Agree.cancel (agree : Agree worker left right) :
    Agree worker (left.cancel actor) (right.cancel actor) :=
  ⟨agree.slots, update_agree agree.cancelled true, agree.started, agree.results⟩

theorem Agree.start (agree : Agree worker left right) :
    Agree worker (left.start actor) (right.start actor) :=
  ⟨agree.slots, agree.cancelled, update_agree agree.started true, agree.results⟩

theorem Agree.complete
    (agree : Agree worker left right)
    (different : actor ≠ worker)
    (decision : Decision) :
    Agree worker (left.complete actor decision) (right.complete actor decision) := by
  refine ⟨agree.slots, agree.cancelled, agree.started, ?_⟩
  unfold World.complete
  rw [agree.results actor different]
  exact update_agree agree.results _

/-- A session changes only what belongs to its worker. -/
theorem Agree.of_sessionStep
    {event : SessionEvent Key}
    (agree : Agree worker left right)
    (step : SessionStep left worker event after) :
    Agree worker after right := by
  cases step with
  | quiet => exact agree
  | begins => exact agree
  | cancels =>
      refine ⟨agree.slots, fun other different => ?_, agree.started, agree.results⟩
      exact (Function.update_of_ne different _ _).trans (agree.cancelled other different)
  | completes decision =>
      refine ⟨agree.slots, agree.cancelled, agree.started, fun other different => ?_⟩
      exact (Function.update_of_ne different _ _).trans (agree.results other different)

theorem Agree.servesLifetime
    {request : Agent.Call Key}
    {answer : request.Answer}
    (agree : Agree worker left right)
    (different : actor ≠ worker)
    (served : left.ServesLifetime actor request answer after) :
    ∃ after', right.ServesLifetime actor request answer after' ∧ Agree worker after after' := by
  cases request with
  | lifetimeCancelled =>
      obtain ⟨read, rfl⟩ := served
      exact ⟨right, ⟨read.trans (agree.cancelled actor different), rfl⟩, agree⟩
  | cancelLifetime =>
      obtain rfl := served
      exact ⟨_, rfl, agree.cancel⟩
  | uptimeNs | wallTimeMs | peek =>
      obtain rfl := served
      exact ⟨right, rfl, agree⟩
  | _ => exact served.elim

theorem Agree.servesWorker
    {request : Agent.Call Key}
    {answer : request.Answer}
    (agree : Agree worker left right)
    (different : actor ≠ worker)
    (served : left.ServesWorker actor request answer after) :
    ∃ after', right.ServesWorker actor request answer after' ∧ Agree worker after after' := by
  have lifetime (served : left.ServesLifetime actor request answer after) :=
    agree.servesLifetime different served
  cases request with
  | slotWait timeout =>
      cases answer with
      | true =>
          obtain ⟨available, rfl⟩ := served
          refine ⟨_, ⟨agree.slots ▸ available, rfl⟩, ?_⟩
          exact ⟨congrArg (· - 1) agree.slots, agree.cancelled, agree.started, agree.results⟩
      | false =>
          obtain rfl := served
          exact ⟨right, rfl, agree⟩
  | slotSignal =>
      obtain rfl := served
      refine ⟨_, rfl, ?_⟩
      exact ⟨congrArg (· + 1) agree.slots, agree.cancelled, agree.started, agree.results⟩
  | sessionStart request requireConfirmation =>
      obtain rfl := served
      exact ⟨_, rfl, agree.start⟩
  | resultValue =>
      obtain ⟨read, rfl⟩ := served
      exact ⟨right, ⟨read.trans (agree.results actor different), rfl⟩, agree⟩
  | makeSession | readyWait | sessionCancel =>
      obtain rfl := served
      exact ⟨right, rfl, agree⟩
  | _ => exact lifetime served

theorem Agree.servesSession
    {request : SessionCall Key}
    {answer : request.Answer}
    (agree : Agree worker left right)
    (different : actor ≠ worker)
    (served : left.ServesSession actor request answer after) :
    ∃ after', right.ServesSession actor request answer after' ∧ Agree worker after after' := by
  cases request with
  | begin =>
      obtain ⟨started, rfl⟩ := served
      exact ⟨right, ⟨(agree.started actor different).symm.trans started, rfl⟩, agree⟩
  | lifetime request => exact agree.servesLifetime different served
  | complete decision =>
      obtain rfl := served
      exact ⟨_, rfl, agree.complete different decision⟩
  | runModal | canEvaluatePolicy | evaluatePolicy =>
      obtain rfl := served
      exact ⟨right, rfl, agree⟩

/-- Leaving out what a session does after its worker has left gives a run of the others. -/
theorem exists_run_withoutSession
    {programs : CoordinatorPool Key Worker}
    {start : World Worker}
    {before later : List (CoordinatorEntry Key Worker)}
    {middle : CoordinatorPool Key Worker}
    {between : World Worker}
    {result : Except Failure Decision}
    (first : (coordinator Key Worker).Run programs start before middle between)
    (second : (coordinator Key Worker).Run middle between later pool world)
    (left : middle (.worker worker) = .done result) :
    ∃ pool' world', (coordinator Key Worker).Run programs start
        (before ++ withoutSession worker later) pool' world' ∧
      Agree worker world world' ∧ pool (.worker worker) = .done result ∧
      ∀ party, party ≠ .session worker -> pool' party = pool party := by
  induction second with
  | start => exact ⟨middle, between, by simpa [withoutSession] using first, .refl _, left,
      fun _ _ => rfl⟩
  | @step later pool world after party request next answer _ current served
      inductionHypothesis =>
      obtain ⟨pool', world', run, agree, done, same⟩ := inductionHypothesis
      by_cases own : party = .session worker
      · subst own
        refine ⟨pool', world', ?_, agree.of_sessionStep (sessionStep_of_serves served), ?_, ?_⟩
        · simpa [withoutSession] using run
        · rw [Function.update_of_ne (by simp)]
          exact done
        · intro party different
          rw [Function.update_of_ne different]
          exact same party different
      · have other : party.owner ≠ worker := by
          rintro rfl
          cases party with
          | worker actor => exact absurd (done.symm.trans current) (by simp)
          | session actor => exact own rfl
        have served' : ∃ after', (coordinator Key Worker).serves party world' request answer
            after' ∧ Agree worker after after' := by
          cases party with
          | worker actor => exact agree.servesWorker other served
          | session actor => exact agree.servesSession other served
        obtain ⟨after', answered, stillAgree⟩ := served'
        have stepped := run.step ((same party own).trans current) answered
        refine ⟨Function.update pool' party (next answer), after', ?_, stillAgree, ?_, ?_⟩
        · simpa [withoutSession, own] using stepped
        · rw [Function.update_of_ne]
          · exact done
          · rintro rfl
            exact other rfl
        · intro third different
          by_cases moved : third = party
          · subst moved
            rw [Function.update_self, Function.update_self]
          · rw [Function.update_of_ne moved, Function.update_of_ne moved]
            exact same third different
  | drift _ drifted inductionHypothesis =>
      obtain ⟨pool', world', run, agree, done, same⟩ := inductionHypothesis
      obtain ⟨actor, rfl⟩ := drifted
      exact ⟨pool', _, run.drift ⟨actor, rfl⟩, agree.cancel, done, same⟩

/-- The calls of a thread determine what remains of it. -/
theorem eq_done_of_ends
    {Call : Type}
    {Answer : Call -> Type}
    {ε α : Type}
    {program rest : Effect.Program Call Answer ε α}
    {trace : List (Event Call Answer)}
    {result : Except ε α}
    (steps : Steps program trace rest)
    (ended : Ends program trace result) :
    rest = .done result := by
  induction steps with
  | refl program =>
      cases ended
      rfl
  | call _ inductionHypothesis =>
      cases ended with
      | call ended => exact inductionHypothesis ended

theorem steps_done
    {Call : Type}
    {Answer : Call -> Type}
    {ε α : Type}
    {rest : Effect.Program Call Answer ε α}
    {trace : List (Event Call Answer)}
    {result : Except ε α}
    (steps : Steps (.done result) trace rest) :
    trace = [] ∧ rest = .done result := by
  cases steps
  exact ⟨rfl, rfl⟩

/-- A decision in the result cell was the first completion of the session. -/
theorem exists_first_completion
    {history : List (CoordinatorEntry Key Worker)}
    {decision : Decision}
    (first : (completions (traceOf (Party.session worker) history)).head? = some decision) :
    ∃ before after, history = before ++ ⟨.session worker, ⟨.complete decision, ()⟩⟩ :: after ∧
      ¬Completed (traceOf (Party.session worker) before) := by
  obtain ⟨rest, known⟩ := List.head?_eq_some_iff.mp first
  obtain ⟨skipped, event, later, split, none, found, _⟩ := List.filterMap_eq_cons_iff.mp known
  obtain ⟨before, after, rfl, own, _⟩ := System.exists_split_of_traceOf split
  obtain ⟨request, answer⟩ := event
  cases request with
  | complete made =>
      obtain rfl := Option.some.inj found
      refine ⟨before, after, rfl, ?_⟩
      rintro ⟨other, member⟩
      rw [own] at member
      exact absurd (none _ member) (by simp)
  | _ => cases found

theorem not_sessionRuns_of_holdsSlot
    (invariant : CoordinatorInvariant history world)
    (holds : ¬(stage (traceOf (Party.worker worker) history)).HoldsSlot) :
    ¬SessionRuns worker history := by
  rintro ⟨started, running⟩
  have record := invariant.record worker
  have known := record.started started
  cases stands : stage (traceOf (Party.worker worker) history) with
  | queued => exact known.1 stands
  | holding => exact known.2 stands
  | running calls => exact holds (by rw [stands]; trivial)
  | leaving => exact holds (by rw [stands]; trivial)
  | cancelled => exact running (record.cancelled started (.inl stands))
  | released => exact running (record.cancelled started (.inr stands))

/-- One session runs at a time. -/
theorem sessionRuns_unique
    (invariant : CoordinatorInvariant history world)
    {first second : Worker}
    (firstRuns : SessionRuns first history)
    (secondRuns : SessionRuns second history) :
    first = second := by
  apply invariant.exclusive.unique
  · by_contra holds
    exact not_sessionRuns_of_holdsSlot invariant holds firstRuns
  · by_contra holds
    exact not_sessionRuns_of_holdsSlot invariant holds secondRuns

/-- The flag is set once a check has failed. -/
theorem cancelled_of_checkFailed
    (invariant : CoordinatorInvariant history world)
    {lifetime : RequestLifetime}
    (failed : CheckFailed lifetime worker history) :
    world.cancelled worker = true := by
  apply invariant.cancelled worker
  rcases failed with ⟨check, error, inside, ended⟩ | ⟨check, error, inside, ended⟩
  · rcases flagged_of_error ended with seen | set
    · exact .inl (.inl (inside.subset seen))
    · exact .inl (.inr (inside.subset set))
  · rcases inactive_of_error ended with seen | set
    · exact .inr (.inl (inside.subset seen))
    · exact .inr (.inr (inside.subset set))

theorem returned_of_run
    (run : (coordinator Key Worker).Run (threads evaluations rounds sessions) World.initial history
      pool world)
    {decision : Decision}
    (returned : pool (.worker worker) = .done (.ok decision)) :
    ∃ before after, history = before ++ ⟨.session worker, ⟨.complete decision, ()⟩⟩ :: after ∧
      ¬Completed (traceOf (Party.session worker) before) ∧
      ∃ check, check <:+: traceOf (Party.worker worker) after ∧
        Ends (evaluations worker).lifetime.check check (.ok ()) := by
  have steps := run.steps (Party.worker worker)
  rw [returned] at steps
  obtain ⟨first, seen, check, last, trace, passed⟩ := ends_evaluate_checked steps
  obtain ⟨past, future, rfl, _, futureTrace⟩ := System.exists_split_of_traceOf trace
  obtain ⟨middle, ending, rfl, middleTrace, _⟩ := System.exists_split_of_traceOf futureTrace
  -- the cell holds the first completion at the first look, and still does at the second
  obtain ⟨_, firstWorld, _, firstRun, read, _⟩ := run.exists_before rfl
  have held : (completions (traceOf (Party.session worker) past)).head? = some seen :=
    ((coordinatorInvariant_of_run firstRun).results worker).symm.trans read.symm
  have regrouped : past ++ ⟨.worker worker, ⟨.resultValue, some seen⟩⟩ ::
      (middle ++ ⟨.worker worker, ⟨.resultValue, some decision⟩⟩ :: ending) =
      (past ++ ⟨.worker worker, ⟨.resultValue, some seen⟩⟩ :: middle) ++
        ⟨.worker worker, ⟨.resultValue, some decision⟩⟩ :: ending := by
    simp
  obtain ⟨_, secondWorld, _, secondRun, readAgain, _⟩ := run.exists_before regrouped
  have heldAgain := ((coordinatorInvariant_of_run secondRun).results worker).symm.trans
    readAgain.symm
  rw [traceOf_append, completions_append, List.head?_append, held] at heldAgain
  obtain rfl : seen = decision := Option.some.inj heldAgain
  obtain ⟨before, between, rfl, fresh⟩ := exists_first_completion held
  refine ⟨before, between ++ ⟨.worker worker, ⟨.resultValue, some seen⟩⟩ ::
    (middle ++ ⟨.worker worker, ⟨.resultValue, some seen⟩⟩ :: ending), by simp, fresh, check, ?_,
    passed⟩
  refine ⟨traceOf (Party.worker worker) between ++ [⟨.resultValue, some seen⟩],
    ⟨.resultValue, some seen⟩ :: last, ?_⟩
  rw [traceOf_append, traceOf_cons_own, futureTrace]
  simp

theorem remaining_le (stage : Stage) : stage.remaining ≤ 8 := by
  cases stage with
  | running calls => exact Nat.sub_le 8 calls
  | queued => decide
  | holding => decide
  | leaving => decide
  | cancelled => decide
  | released => decide

/-- The later calls of a worker are allowed as well. -/
theorem allowed_of_run
    {before later : List (CoordinatorEntry Key Worker)}
    (run : (coordinator Key Worker).Run (threads evaluations rounds sessions) World.initial
      (before ++ later) pool world)
    (front : List (AgentEvent Key))
    (event : AgentEvent Key)
    (back : List (AgentEvent Key))
    (split : traceOf (Party.worker worker) later = front ++ event :: back) :
    (workerContract (evaluations worker) rounds).allows
      (traceOf (Party.worker worker) before ++ front) event.call := by
  apply run.allowed (Party.worker worker)
  · exact meets_evaluate (evaluations worker) rounds
  · exact fun _ _ _ _ => trivial
  · rw [traceOf_append, split, List.append_assoc]

theorem dropped_of_run
    (run : (coordinator Key Worker).Run (threads evaluations rounds sessions) World.initial history
      pool world)
    {before after : List (CoordinatorEntry Key Worker)}
    (asks : sessions worker = localAuthenticationSession (evaluations worker).request
      (evaluations worker).requireConfirmation (evaluations worker).lifetime)
    (split : history = before ++ after)
    (ended : Ends (sessions worker) (traceOf (Party.session worker) before) (.ok ()))
    (silent : ¬Completed (traceOf (Party.session worker) before)) :
    NoCheckPasses (evaluations worker).lifetime worker after ∧
      (traceOf (Party.worker worker) after).length ≤ 8 ∧
      (∀ result, pool (.worker worker) = .done result ->
        (∃ error, result = .error error) ∧
          SlotReleased (traceOf (Party.worker worker) history)) ∧
      (pool (.worker worker) = .exhausted ->
        rounds ≤ waits (traceOf (Party.worker worker) history)) := by
  subst split
  obtain ⟨middle, between, first, second⟩ := run.split
  have invariant := coordinatorInvariant_of_run first
  have final := coordinatorInvariant_of_run run
  obtain ⟨begun, settled⟩ := settled_of_ends_localAuthenticationSession (asks ▸ ended)
  have started := invariant.begun worker begun
  have set := invariant.cancelled worker (.inr (settled.resolve_left silent))
  obtain ⟨_, workerSees, sessionSees⟩ := clear_of_cancelled second set
  have meets := worker_meets run worker
  refine ⟨noCheckPasses_of_clear workerSees sessionSees, ?_, ?_, ?_⟩
  · have known := (invariant.record worker).started started
    refine (length_le_remaining known (allowed_of_run run) ?_).trans (remaining_le _)
    rintro event member rfl
    exact workerSees member
  · intro result done
    rw [done] at meets
    have record := final.record worker
    have begun : SessionStarted (traceOf (Party.worker worker) (before ++ after)) := by
      obtain ⟨request, requireConfirmation, member⟩ := started
      rw [traceOf_append]
      exact ⟨request, requireConfirmation, List.mem_append_left _ member⟩
    cases result with
    | error error =>
        refine ⟨⟨error, rfl⟩, record.released ?_⟩
        exact (show _ ∨ _ from meets).resolve_left (record.started begun).1
    | ok decision =>
        exfalso
        obtain ⟨front, back, whole, _⟩ := returned_of_run run done
        have member : ⟨.complete decision, ()⟩ ∈
            traceOf (Party.session worker) (before ++ after) := by
          rw [whole, mem_traceOf]
          simp
        have finished := second.steps (Party.session worker)
        rw [eq_done_of_ends (first.steps (Party.session worker)) ended] at finished
        rw [traceOf_append, (steps_done finished).1, List.append_nil] at member
        exact silent ⟨decision, member⟩
  · intro exhausted
    rw [exhausted] at meets
    exact meets

/-- The authentication slot is kept in order in every run. -/
theorem evaluate_slotDiscipline
    (evaluations : Worker -> Evaluation)
    (rounds : Nat)
    (sessions : Worker -> SessionRoutine Key Unit)
    (run : (coordinator Key Worker).Run (threads evaluations rounds sessions) World.initial history
      pool world) :
    SlotDiscipline evaluations rounds sessions history pool := by
  refine ⟨?_, ?_, ?_, ?_, ?_, ?_⟩
  · intro first second
    exact sessionRuns_unique (coordinatorInvariant_of_run run)
  · rintro before worker timeout after rfl other
    obtain ⟨earlier, first, second, past, available, _⟩ := run.exists_before rfl
    have invariant := coordinatorInvariant_of_run past
    exact not_sessionRuns_of_holdsSlot invariant (invariant.exclusive.free available other)
  · exact fun worker decision => returned_of_run run
  · rintro worker before after rfl failed
    obtain ⟨middle, between, first, second⟩ := run.split
    have set := cancelled_of_checkFailed (coordinatorInvariant_of_run first) failed
    obtain ⟨_, workerSees, sessionSees⟩ := clear_of_cancelled second set
    exact noCheckPasses_of_clear workerSees sessionSees
  · rintro worker before after result rfl ended
    obtain ⟨middle, between, first, second⟩ := run.split
    have left := eq_done_of_ends (first.steps (Party.worker worker)) ended
    obtain ⟨pool', world', others, _, _, same⟩ := exists_run_withoutSession first second left
    exact ⟨pool', world', others, same⟩
  · intro worker before after
    exact dropped_of_run run

end Together

/-! ## A sample run -/

/-- A request of the host `web`. -/
def sampleRequest : AuthRequestBody where
  protocolVersion := 1
  requestId := "req-1"
  nonce := []
  createdAtMs := 1000
  expiresAtMs := 16000
  linuxHostId := "web"
  linuxHostname := "web"
  pamService := "sudo"
  pamUser := "ada"
  pamRuser := none
  pamRhost := none
  pamTty := none
  sudoCommand := none
  clientPid := none
  keyId := "host-key-1"
  alg := "ed25519"

def sampleEvaluation : Evaluation where
  request := sampleRequest
  requireConfirmation := false
  lifetime := ⟨⟨15000000000⟩, 16000⟩

/-- The session asks the user. -/
def sampleSession : SessionRoutine Unit Unit :=
  localAuthenticationSession sampleRequest false ⟨⟨15000000000⟩, 16000⟩

abbrev sampleThreads : CoordinatorPool Unit Unit :=
  threads (fun _ : Unit => sampleEvaluation) 2 fun _ => sampleSession

/-- A check of the lifetime that passes. -/
def samplePassing : List (AgentEvent Unit) :=
  [⟨.lifetimeCancelled, false⟩, ⟨.uptimeNs, 0⟩, ⟨.wallTimeMs, 1000⟩, ⟨.peek, .again⟩]

/-- The worker starts its session. -/
def sampleStarting : List (AgentEvent Unit) :=
  ⟨.slotWait 25, true⟩ :: (samplePassing ++
    [⟨.makeSession, ()⟩, ⟨.sessionStart sampleRequest false, ()⟩])

/-- The user approves. -/
def sampleAsking : List (SessionEvent Unit) :=
  ⟨.begin, ()⟩ :: (samplePassing.map lifetimeEvent ++ samplePassing.map lifetimeEvent ++
    ⟨.canEvaluatePolicy, true⟩ :: (samplePassing.map lifetimeEvent ++
      [⟨.evaluatePolicy sampleRequest, ⟨true, none⟩⟩, ⟨.complete .approved, ()⟩]))

/-- The worker takes the result. -/
def sampleEnding : List (AgentEvent Unit) :=
  ⟨.resultValue, some .approved⟩ :: (samplePassing ++
    [⟨.resultValue, some .approved⟩, ⟨.sessionCancel, ()⟩, ⟨.slotSignal, ()⟩])

/-- The world in which the session of the worker has been started. -/
def sampleStarted : World Unit :=
  World.start { World.initial with slots := 0 } ()

/-- A single worker returns the approval of its session. -/
theorem evaluate_slotDiscipline_approved :
    ∃ history pool world,
      (coordinator Unit Unit).Run sampleThreads World.initial history pool world ∧
      pool (.worker ()) = .done (.ok .approved) ∧
      SlotDiscipline (fun _ : Unit => sampleEvaluation) 2 (fun _ => sampleSession) history pool := by
  have begun : (coordinator Unit Unit).Run sampleThreads World.initial [] sampleThreads
      World.initial := .start
  have whole : Steps (sampleThreads (.worker ())) (sampleStarting ++ sampleEnding)
      (.done (.ok Decision.approved)) :=
    .call (.call (.call (.call (.call (.call (.call (.call (.call (.call (.call (.call (.call
      (.call (.call (.refl _)))))))))))))))
  obtain ⟨waiting, starts, ends⟩ := steps_append.mp whole
  have startsServed : (coordinator Unit Unit).ServesAll (.worker ()) World.initial sampleStarting
      sampleStarted :=
    .cons ⟨by decide, rfl⟩ (.cons ⟨rfl, rfl⟩ (.cons rfl (.cons rfl (.cons rfl (.cons rfl
      (.cons rfl (.nil _)))))))
  have started := begun.alone starts startsServed
  have asks : Steps (sampleThreads (.session ())) sampleAsking (.done (.ok ())) :=
    .call (.call (.call (.call (.call (.call (.call (.call (.call (.call (.call (.call (.call
      (.call (.call (.call (.refl _))))))))))))))))
  have asksServed : (coordinator Unit Unit).ServesAll (.session ()) sampleStarted sampleAsking
      (sampleStarted.complete () .approved) :=
    .cons ⟨rfl, rfl⟩ (.cons ⟨rfl, rfl⟩ (.cons rfl (.cons rfl (.cons rfl (.cons ⟨rfl, rfl⟩
      (.cons rfl (.cons rfl (.cons rfl (.cons rfl (.cons ⟨rfl, rfl⟩ (.cons rfl (.cons rfl
        (.cons rfl (.cons rfl (.cons rfl (.nil _))))))))))))))))
  have asked := System.Run.alone started (show Steps (Function.update sampleThreads _ _
    (.session ())) sampleAsking _ from asks) asksServed
  have endsServed : (coordinator Unit Unit).ServesAll (.worker ())
      (sampleStarted.complete () .approved) sampleEnding
      { sampleStarted.complete () .approved with slots := 1 } :=
    .cons ⟨rfl, rfl⟩ (.cons ⟨rfl, rfl⟩ (.cons rfl (.cons rfl (.cons rfl (.cons ⟨rfl, rfl⟩
      (.cons rfl (.cons rfl (.nil _))))))))
  have ended := System.Run.alone asked (show Steps (Function.update (Function.update sampleThreads
    (.worker ()) waiting) (.session ()) _ (.worker ())) sampleEnding _ from ends) endsServed
  exact ⟨_, _, _, ended, rfl, evaluate_slotDiscipline _ _ _ ended⟩

end Coordinator
end Agent
end MacosAuth
