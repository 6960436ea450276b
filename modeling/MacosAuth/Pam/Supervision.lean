import MacosAuth.Pam.Authenticate

/-!
# Supervision of the helper process

An execution of `run_helper` after a successful `fork` consists of uneventful polls and
one of a few endings. `Outcome` lists the endings; that a status is accepted only before
the timeout, and that no child is left behind, is read off from them.
-/

namespace MacosAuth
namespace Pam

open Codec
open Effect Effect.Program
open Helper (File)

/-! ## Events -/

/-- The clock reading at which the polling loop judges the timeout reached. -/
def JudgesTimeout (startMs : UInt64) (timeoutMs : UInt32) : PamEvent -> Prop
  | ⟨.clockGettime, some time⟩ =>
      startMs ≤ time.milliseconds ∧ timeoutMs.toUInt64 ≤ time.milliseconds - startMs
  | _ => False

/-- A clock that fails or goes backward, a child that dies by a signal, or a failure of
`waitpid` that is not an interruption. -/
def Fails (startMs : UInt64) : PamEvent -> Prop
  | ⟨.clockGettime, none⟩ => True
  | ⟨.clockGettime, some time⟩ => time.milliseconds < startMs
  | ⟨.waitNoHang _, .ended (.signaled _)⟩ => True
  | ⟨.waitNoHang _, .failed code⟩ => code ≠ eintr
  | ⟨.wait _, .ok (.signaled _)⟩ => True
  | ⟨.wait _, .error code⟩ => code ≠ eintr
  | _ => False

/-- The child has been reaped, or `waitpid` fails for another reason than an
interruption. -/
def Reaps (pid : Nat) : PamEvent -> Prop
  | ⟨.waitNoHang waited, .ended _⟩ => waited = pid
  | ⟨.waitNoHang waited, .failed code⟩ => waited = pid ∧ code ≠ eintr
  | ⟨.wait waited, .ok _⟩ => waited = pid
  | ⟨.wait waited, .error code⟩ => waited = pid ∧ code ≠ eintr
  | _ => False

def isWait : PamEvent -> Bool
  | ⟨.waitNoHang _, _⟩ => true
  | ⟨.wait _, _⟩ => true
  | _ => false

/-- The calls of `waitpid` in a trace. -/
def waits (trace : List PamEvent) : Nat :=
  trace.countP isWait

@[simp] theorem waits_append (first second : List PamEvent) :
    waits (first ++ second) = waits first + waits second := by
  simp [waits]

/-- Nothing that the polling loop would act on. -/
def Uneventful (startMs : UInt64) (timeoutMs : UInt32) (event : PamEvent) : Prop :=
  ¬JudgesTimeout startMs timeoutMs event ∧ ¬Fails startMs event

/-- A reading that judges the timeout reached is no clock failure. -/
theorem JudgesTimeout.not_fails
    {startMs : UInt64}
    {timeoutMs : UInt32}
    {event : PamEvent}
    (judged : JudgesTimeout startMs timeoutMs event) :
    ¬Fails startMs event := by
  intro fails
  obtain ⟨request, answer⟩ := event
  cases request with
  | clockGettime =>
      cases answer with
      | none => exact judged
      | some time => exact absurd fails (UInt64.not_lt.mpr judged.1)
  | _ => exact judged

/-! ## Endings -/

/-- What follows the uneventful polls of a child, and the result of `run_helper`. -/
inductive Outcome (pid : Nat) (startMs : UInt64) (timeoutMs : UInt32) :
    List PamEvent -> Nat -> Prop
  | exited (status : UInt8) :
      Outcome pid startMs timeoutMs
        [⟨.waitNoHang pid, .ended (.exited status)⟩] status.toNat
  | signaled (signal : Nat) :
      Outcome pid startMs timeoutMs [⟨.waitNoHang pid, .ended (.signaled signal)⟩] 127
  /-- The wait or the clock fails; the child is killed and reaped where needed. -/
  | failed {event : PamEvent} {cleanup : List PamEvent} :
      ¬JudgesTimeout startMs timeoutMs event ->
      (∃ reaping ∈ event :: cleanup, Reaps pid reaping) ->
      Outcome pid startMs timeoutMs (event :: cleanup) 127
  | timedOut {event : PamEvent} {cleanup : List PamEvent} {code : Nat} :
      JudgesTimeout startMs timeoutMs event ->
      code = 10 ∨ code = 127 ->
      (∃ reaping ∈ cleanup, Reaps pid reaping) ->
      Outcome pid startMs timeoutMs (event :: cleanup) code

/-- The executions of `run_helper` that return. -/
inductive Returns (timeoutMs : UInt32) : List PamEvent -> Nat -> Prop
  | noTimeout : Returns timeoutMs [] 127
  | noClock : Returns timeoutMs [⟨.clockGettime, none⟩] 127
  | noChild {start : Timespec} {error : Nat} :
      Returns timeoutMs [⟨.clockGettime, some start⟩, ⟨.fork, .failed error⟩] 127
  | supervised {start : Timespec} {pid code : Nat} {polls ending : List PamEvent} :
      (∀ event ∈ polls, Uneventful start.milliseconds timeoutMs event) ->
      Outcome pid start.milliseconds timeoutMs ending code ->
      Returns timeoutMs
        (⟨.clockGettime, some start⟩ :: ⟨.fork, .parent pid⟩ :: (polls ++ ending)) code

/-! ## The loops -/

/-- Every answer is possible, `fork` is the second call, and a loop gives up only after
as many waits. -/
def patience (rounds : Nat) : Contract Call Call.Answer where
  relies _ _ := True
  allows past request := request = .fork -> past.length = 1
  givesUp past := rounds ≤ waits past

section Loops

variable {rounds pid : Nat} {startMs : UInt64} {timeoutMs : UInt32}
variable {past : List PamEvent}

theorem patience_reap
    {left : Nat}
    (enough : rounds ≤ waits past + left) :
    (reap pid left).Meets (patience rounds) past fun later result =>
      result = .ok () ∧ ∃ cleanup, later = past ++ cleanup ∧
        ∃ reaping ∈ cleanup, Reaps pid reaping := by
  induction left generalizing past with
  | zero => exact enough
  | succ left inductionHypothesis =>
      unfold reap
      rw [meets_perform_bind]
      refine ⟨nofun, fun waited _ => ?_⟩
      cases waited with
      | ok status => exact ⟨rfl, _, rfl, _, List.mem_singleton_self _, rfl⟩
      | error code =>
          dsimp only
          split
          · have counted : waits (past ++ [⟨.wait pid, .error code⟩]) = waits past + 1 := by
              simp [waits, isWait]
            refine (inductionHypothesis (by omega)).mono ?_
            rintro later result ⟨ok, cleanup, rfl, reaping, member, reaps⟩
            refine ⟨ok, _, List.append_assoc .., reaping, ?_, reaps⟩
            exact List.mem_append_right _ member
          · rename_i other
            exact ⟨rfl, _, rfl, _, List.mem_singleton_self _, rfl, other⟩

theorem patience_killAndReap :
    (killAndReap rounds pid).Meets (patience rounds) past fun later result =>
      result = .ok () ∧ ∃ cleanup, later = past ++ cleanup ∧
        ∃ reaping ∈ cleanup, Reaps pid reaping := by
  unfold killAndReap
  rw [meets_perform_bind]
  refine ⟨nofun, fun _ _ => ?_⟩
  refine (patience_reap (Nat.le_add_left _ _)).mono ?_
  rintro later result ⟨ok, cleanup, rfl, reaping, member, reaps⟩
  refine ⟨ok, _, List.append_assoc .., reaping, ?_, reaps⟩
  exact List.mem_append_right _ member

/-- The child is killed and reaped, and a fixed code is returned. -/
theorem patience_killAndReap_return
    (code : Nat) :
    (killAndReap rounds pid >>= fun _ => pure code).Meets (patience rounds) past
      fun later result => result = .ok code ∧ ∃ cleanup, later = past ++ cleanup ∧
        ∃ reaping ∈ cleanup, Reaps pid reaping := by
  refine Meets.bind patience_killAndReap ?_ fun later error facts => absurd facts.1 (by simp)
  rintro later _ ⟨-, reaped⟩
  exact ⟨rfl, reaped⟩

/-- After the timeout only two codes are returned. -/
theorem patience_awaitTermination
    {left : Nat} :
    (awaitTermination rounds pid left).Meets (patience rounds) past fun later result =>
      ∃ code, result = .ok code ∧ (code = 10 ∨ code = 127) ∧
        ∃ cleanup, later = past ++ cleanup ∧ ∃ reaping ∈ cleanup, Reaps pid reaping := by
  induction left generalizing past with
  | zero =>
      refine (patience_killAndReap_return helperTimeoutExit).mono ?_
      rintro later result ⟨rfl, reaped⟩
      exact ⟨_, rfl, .inl rfl, reaped⟩
  | succ left inductionHypothesis =>
      unfold awaitTermination
      rw [meets_perform_bind]
      refine ⟨nofun, fun waited _ => ?_⟩
      have again (waited : WaitResult) :
          (perform (Call.usleep 50000) >>= fun _ => awaitTermination rounds pid left).Meets
            (patience rounds) (past ++ [⟨.waitNoHang pid, waited⟩]) fun later result =>
              ∃ code, result = .ok code ∧ (code = 10 ∨ code = 127) ∧
                ∃ cleanup, later = past ++ cleanup ∧ ∃ reaping ∈ cleanup, Reaps pid reaping := by
        rw [meets_perform_bind]
        refine ⟨nofun, fun _ _ => ?_⟩
        refine inductionHypothesis.mono ?_
        rintro later result ⟨code, ok, allowed, cleanup, rfl, reaping, member, reaps⟩
        refine ⟨code, ok, allowed, _, (List.append_assoc ..).trans (List.append_assoc ..), reaping,
          ?_, reaps⟩
        exact List.mem_append_right _ (List.mem_append_right _ member)
      cases waited with
      | ended status =>
          exact ⟨_, rfl, .inl rfl, _, rfl, _, List.mem_singleton_self _, rfl⟩
      | running => exact again .running
      | failed code =>
          dsimp only
          split
          · rename_i lost
            refine ⟨_, rfl, .inr rfl, _, rfl, _, List.mem_singleton_self _, rfl, ?_⟩
            rw [lost]
            decide
          · exact again (.failed code)

theorem patience_monotonicMs
    {next : Option UInt64 -> Routine α}
    {post : List PamEvent -> Except ChildEnd α -> Prop}
    (continues : ∀ time : Option Timespec,
      (next (time.map Timespec.milliseconds)).Meets (patience rounds)
        (past ++ [⟨.clockGettime, time⟩]) post) :
    (monotonicMs >>= next).Meets (patience rounds) past post :=
  ⟨nofun, fun time _ => continues time⟩

/-- By induction over the polls: one poll is uneventful, or it starts an ending. -/
theorem patience_pollLoop
    {left : Nat}
    (enough : rounds ≤ waits past + left) :
    (pollLoop rounds pid startMs timeoutMs left).Meets (patience rounds) past
      fun later result => ∃ code polls ending, result = .ok code ∧
        later = past ++ (polls ++ ending) ∧
        (∀ event ∈ polls, Uneventful startMs timeoutMs event) ∧
        Outcome pid startMs timeoutMs ending code := by
  induction left generalizing past with
  | zero => exact enough
  | succ left inductionHypothesis =>
      have again (poll : List PamEvent)
          (waited : waits poll = 1)
          (uneventful : ∀ event ∈ poll, Uneventful startMs timeoutMs event) :
          (pollLoop rounds pid startMs timeoutMs left).Meets (patience rounds) (past ++ poll)
            fun later result => ∃ code polls ending, result = .ok code ∧
              later = past ++ (polls ++ ending) ∧
              (∀ event ∈ polls, Uneventful startMs timeoutMs event) ∧
              Outcome pid startMs timeoutMs ending code := by
        refine (inductionHypothesis (by rw [waits_append]; omega)).mono ?_
        rintro later result ⟨code, polls, ending, ok, rfl, others, outcome⟩
        refine ⟨code, poll ++ polls, ending, ok, by simp, fun event member => ?_, outcome⟩
        rcases List.mem_append.mp member with first | later
        · exact uneventful event first
        · exact others event later
      have ends (poll : List PamEvent) (event : PamEvent)
          (uneventful : ∀ event ∈ poll, Uneventful startMs timeoutMs event)
          (notJudged : ¬JudgesTimeout startMs timeoutMs event) :
          (killAndReap rounds pid >>= fun _ => pure 127).Meets (patience rounds)
            (past ++ (poll ++ [event])) fun later result => ∃ code polls ending,
              result = .ok code ∧ later = past ++ (polls ++ ending) ∧
              (∀ event ∈ polls, Uneventful startMs timeoutMs event) ∧
              Outcome pid startMs timeoutMs ending code := by
        refine (patience_killAndReap_return 127).mono ?_
        rintro later result ⟨ok, cleanup, rfl, reaping, member, reaps⟩
        refine ⟨127, poll, event :: cleanup, ok, by simp, uneventful, .failed notJudged ?_⟩
        exact ⟨reaping, List.mem_cons_of_mem _ member, reaps⟩
      unfold pollLoop
      rw [meets_perform_bind]
      refine ⟨nofun, fun waited _ => ?_⟩
      cases waited with
      | ended status =>
          cases status with
          | exited status =>
              exact ⟨_, [], _, rfl, rfl, fun _ member => absurd member List.not_mem_nil,
                .exited status⟩
          | signaled signal =>
              exact ⟨_, [], _, rfl, rfl, fun _ member => absurd member List.not_mem_nil,
                .signaled signal⟩
      | failed code =>
          dsimp only
          split
          · rename_i interrupted
            refine again [⟨.waitNoHang pid, .failed code⟩] rfl fun event member => ?_
            obtain rfl := List.mem_singleton.mp member
            exact ⟨id, fun fails => fails interrupted⟩
          · rename_i other
            split
            · refine ⟨127, [], _, rfl, rfl, fun _ member => absurd member List.not_mem_nil, ?_⟩
              exact .failed id ⟨_, List.mem_singleton_self _, rfl, other⟩
            · exact ends [] ⟨.waitNoHang pid, .failed code⟩
                (fun _ member => absurd member List.not_mem_nil) id
      | running =>
          have polled (event : PamEvent) (member : event ∈ [⟨.waitNoHang pid, .running⟩]) :
              Uneventful startMs timeoutMs event := by
            obtain rfl := List.mem_singleton.mp member
            exact ⟨id, id⟩
          refine patience_monotonicMs fun time => ?_
          rw [List.append_assoc]
          cases time with
          | none => exact ends _ ⟨.clockGettime, none⟩ polled id
          | some time =>
              simp only [Option.map_some]
              split
              · rename_i backward
                refine ends _ ⟨.clockGettime, some time⟩ polled fun judged => ?_
                exact absurd backward (UInt64.not_lt.mpr judged.1)
              · rename_i forward
                split
                · rename_i reached
                  rw [meets_perform_bind]
                  refine ⟨nofun, fun _ _ => ?_⟩
                  refine patience_awaitTermination.mono ?_
                  rintro later result ⟨code, ok, allowed, cleanup, rfl, reaping, member, reaps⟩
                  refine ⟨code, [⟨.waitNoHang pid, .running⟩],
                    ⟨.clockGettime, some time⟩ :: ⟨.kill pid sigterm, ()⟩ :: cleanup, ok,
                    by simp, polled, .timedOut ⟨UInt64.not_lt.mp forward, reached⟩ allowed ?_⟩
                  exact ⟨reaping, List.mem_cons_of_mem _ member, reaps⟩
                · rename_i early
                  rw [meets_perform_bind]
                  refine ⟨nofun, fun _ _ => ?_⟩
                  rw [List.append_assoc]
                  refine again _ rfl fun event member => ?_
                  rcases List.mem_append.mp member with first | slept
                  · rcases List.mem_append.mp first with waited | read
                    · exact polled event waited
                    · obtain rfl := List.mem_singleton.mp read
                      exact ⟨fun judged => early judged.2, forward⟩
                  · obtain rfl := List.mem_singleton.mp slept
                    exact ⟨id, id⟩

/-- The child leaves `run_helper` without a result. -/
theorem patience_becomeHelper
    {helperFd : File}
    {execArgv : List Bytes}
    {post : List PamEvent -> Except ChildEnd Nat -> Prop}
    (ends : ∀ later error, post later (.error error)) :
    (becomeHelper helperFd execArgv).Meets (patience rounds) past post := by
  unfold becomeHelper
  rw [meets_perform_bind]
  refine ⟨nofun, fun moved _ => ?_⟩
  split
  · exact ends _ _
  · rw [meets_perform_bind]
    refine ⟨nofun, fun flagged _ => ?_⟩
    split
    · exact ends _ _
    · rw [meets_perform_bind]
      refine ⟨nofun, fun closed _ => ?_⟩
      split
      · exact ends _ _
      · rw [meets_perform_bind]
        refine ⟨nofun, fun replaced _ => ?_⟩
        split
        · exact ends _ _
        · exact ends _ _

theorem patience_runHelper
    {helperFd : File}
    {execArgv : List Bytes} :
    (runHelper rounds helperFd execArgv timeoutMs).Meets (patience rounds) []
      fun trace result => ∀ code, result = .ok code -> Returns timeoutMs trace code := by
  unfold runHelper
  split
  · rintro code equal
    obtain rfl := Except.ok.inj equal
    exact .noTimeout
  · refine patience_monotonicMs fun start => ?_
    cases start with
    | none =>
        rintro code equal
        obtain rfl := Except.ok.inj equal
        exact .noClock
    | some start =>
        simp only [Option.map_some]
        rw [meets_perform_bind]
        refine ⟨fun _ => rfl, fun forked _ => ?_⟩
        cases forked with
        | failed error =>
            rintro code equal
            obtain rfl := Except.ok.inj equal
            exact .noChild
        | child =>
            exact patience_becomeHelper fun later error code equal => absurd equal (by simp)
        | parent pid =>
            refine (patience_pollLoop (Nat.le_add_left _ _)).mono ?_
            rintro later result ⟨_, polls, ending, rfl, rfl, uneventful, outcome⟩ code equal
            obtain rfl := Except.ok.inj equal
            exact @Returns.supervised _ start pid _ polls ending uneventful outcome

end Loops

/-! ## What the endings say -/

section Endings

variable {pid code : Nat} {startMs : UInt64} {timeoutMs : UInt32} {ending : List PamEvent}

theorem Outcome.exited_of_status
    (outcome : Outcome pid startMs timeoutMs ending code)
    (notTimeout : code ≠ 10)
    (notFailure : code ≠ 127) :
    ∃ status : UInt8, code = status.toNat ∧
      ending = [⟨.waitNoHang pid, .ended (.exited status)⟩] := by
  cases outcome with
  | exited status => exact ⟨status, rfl, rfl⟩
  | signaled => exact absurd rfl notFailure
  | failed => exact absurd rfl notFailure
  | timedOut _ allowed =>
      rcases allowed with timeout | failure
      · exact absurd timeout notTimeout
      · exact absurd failure notFailure

theorem Outcome.timeout
    {event : PamEvent}
    (outcome : Outcome pid startMs timeoutMs ending code)
    (member : event ∈ ending)
    (judged : JudgesTimeout startMs timeoutMs event) :
    code = 10 ∨ code = 127 := by
  cases outcome with
  | exited status =>
      obtain rfl := List.mem_singleton.mp member
      exact judged.elim
  | signaled => exact .inr rfl
  | failed => exact .inr rfl
  | timedOut _ allowed => exact allowed

/-- A failure before the timeout is judged reached. -/
theorem Outcome.failure
    {event : PamEvent}
    {before after : List PamEvent}
    (outcome : Outcome pid startMs timeoutMs ending code)
    (split : ending = before ++ event :: after)
    (early : ∀ earlier ∈ before, ¬JudgesTimeout startMs timeoutMs earlier)
    (fails : Fails startMs event) :
    code = 127 := by
  cases outcome with
  | exited status =>
      have member : event ∈ [(⟨.waitNoHang pid, .ended (.exited status)⟩ : PamEvent)] := by
        rw [split]
        simp
      obtain rfl := List.mem_singleton.mp member
      exact fails.elim
  | signaled => rfl
  | failed => rfl
  | timedOut judged =>
      cases before with
      | nil =>
          obtain ⟨rfl, -⟩ := List.cons.inj split
          exact absurd fails judged.not_fails
      | cons first before =>
          obtain ⟨rfl, -⟩ := List.cons.inj split
          exact absurd judged (early _ List.mem_cons_self)

theorem Outcome.reaped
    (outcome : Outcome pid startMs timeoutMs ending code) :
    ∃ reaping ∈ ending, Reaps pid reaping := by
  cases outcome with
  | exited status => exact ⟨_, List.mem_singleton_self _, rfl⟩
  | signaled signal => exact ⟨_, List.mem_singleton_self _, rfl⟩
  | failed _ reaps => exact reaps
  | timedOut _ _ reaps =>
      obtain ⟨reaping, member, reaped⟩ := reaps
      exact ⟨reaping, List.mem_cons_of_mem _ member, reaped⟩

end Endings

/-- What is promised about a return of `run_helper`. -/
structure Supervised (timeoutMs : UInt32) (trace : List PamEvent) (code : Nat) : Prop where
  /-- Any other result is the status of a normal exit seen before the timeout. -/
  status : code ≠ 10 -> code ≠ 127 ->
    ∃ (start : Timespec) (pid : Nat) (polls : List PamEvent) (status : UInt8),
      code = status.toNat ∧
      trace = ⟨.clockGettime, some start⟩ :: ⟨.fork, .parent pid⟩ ::
        (polls ++ [⟨.waitNoHang pid, .ended (.exited status)⟩]) ∧
      ∀ event ∈ polls, ¬JudgesTimeout start.milliseconds timeoutMs event
  timeout {start : Timespec} {pid : Nat} {rest : List PamEvent} {event : PamEvent} :
    trace = ⟨.clockGettime, some start⟩ :: ⟨.fork, .parent pid⟩ :: rest -> event ∈ rest ->
    JudgesTimeout start.milliseconds timeoutMs event -> code = 10 ∨ code = 127
  noClock {rest : List PamEvent} : trace = ⟨.clockGettime, none⟩ :: rest -> code = 127
  failure {start : Timespec} {pid : Nat} {before after : List PamEvent} {event : PamEvent} :
    trace = ⟨.clockGettime, some start⟩ :: ⟨.fork, .parent pid⟩ :: (before ++ event :: after) ->
    (∀ earlier ∈ before, ¬JudgesTimeout start.milliseconds timeoutMs earlier) ->
    Fails start.milliseconds event -> code = 127
  reaped {pid : Nat} : ⟨.fork, .parent pid⟩ ∈ trace -> ∃ reaping ∈ trace, Reaps pid reaping

theorem Returns.supervised_of
    {timeoutMs : UInt32}
    {trace : List PamEvent}
    {code : Nat}
    (returns : Returns timeoutMs trace code)
    (forks : ∀ before event after, trace = before ++ event :: after ->
      event.call = .fork -> before.length = 1) :
    Supervised timeoutMs trace code := by
  cases returns with
  | noTimeout =>
      exact {
        status := fun _ notFailure => absurd rfl notFailure
        timeout := fun equal => absurd equal (by simp)
        noClock := fun _ => rfl
        failure := fun _ _ _ => rfl
        reaped := fun member => absurd member List.not_mem_nil }
  | noClock =>
      exact {
        status := fun _ notFailure => absurd rfl notFailure
        timeout := fun equal => absurd equal (by simp)
        noClock := fun _ => rfl
        failure := fun _ _ _ => rfl
        reaped := fun member => absurd member (by simp) }
  | noChild =>
      exact {
        status := fun _ notFailure => absurd rfl notFailure
        timeout := fun equal => absurd equal (by simp)
        noClock := fun _ => rfl
        failure := fun _ _ _ => rfl
        reaped := fun member => absurd member (by simp) }
  | @supervised start pid _ polls ending uneventful outcome =>
      refine { status := ?_, timeout := ?_, noClock := ?_, failure := ?_, reaped := ?_ }
      · intro notTimeout notFailure
        obtain ⟨status, code_eq, rfl⟩ := outcome.exited_of_status notTimeout notFailure
        exact ⟨start, pid, polls, status, code_eq, rfl, fun event member =>
          (uneventful event member).1⟩
      · intro start' pid' rest event equal member judged
        simp only [List.cons.injEq, Event.mk.injEq, heq_eq_eq, Option.some.injEq, true_and,
          ForkResult.parent.injEq] at equal
        obtain ⟨rfl, rfl, rfl⟩ := equal
        rcases List.mem_append.mp member with inPolls | inEnding
        · exact absurd judged (uneventful event inPolls).1
        · exact outcome.timeout inEnding judged
      · intro rest equal
        exact absurd equal (by simp)
      · intro start' pid' before after event equal early fails
        simp only [List.cons.injEq, Event.mk.injEq, heq_eq_eq, Option.some.injEq, true_and,
          ForkResult.parent.injEq] at equal
        obtain ⟨rfl, rfl, split⟩ := equal
        rcases List.append_eq_append_iff.mp split with
          ⟨middle, rfl, endingSplit⟩ | ⟨middle, rfl, behind⟩
        · exact outcome.failure endingSplit
            (fun earlier member => early earlier (List.mem_append_right _ member)) fails
        · cases middle with
          | nil =>
              have atStart : ending = [] ++ event :: after := behind.symm
              refine outcome.failure atStart (fun _ member => ?_) fails
              exact absurd member List.not_mem_nil
          | cons first middle =>
              obtain ⟨rfl, -⟩ := List.cons.inj behind
              exact absurd fails (uneventful event (by simp)).2
      · intro pid' member
        obtain ⟨reaping, inEnding, reaps⟩ := outcome.reaped
        obtain ⟨before, after, split⟩ := List.append_of_mem member
        have second := forks before _ after split rfl
        obtain ⟨first, rfl⟩ := List.length_eq_one_iff.mp second
        simp only [List.singleton_append, List.cons.injEq, Event.mk.injEq, heq_eq_eq,
          true_and, ForkResult.parent.injEq] at split
        obtain ⟨-, rfl, -⟩ := split
        exact ⟨reaping, by simp [inEnding], reaps⟩

theorem supervised_of_ends
    {rounds code : Nat}
    {helperFd : File}
    {execArgv : List Bytes}
    {timeoutMs : UInt32}
    {trace : List PamEvent}
    (ends : Ends (runHelper rounds helperFd execArgv timeoutMs) trace (.ok code)) :
    Supervised timeoutMs trace code := by
  obtain ⟨allowed, returns⟩ := patience_runHelper.steps ends fun _ _ _ _ => trivial
  exact (returns code rfl).supervised_of allowed

theorem mapExitToPam_eq_success_iff
    {code : Nat} :
    mapExitToPam code = .success ↔ code = 0 := by
  constructor
  · unfold mapExitToPam
    split
    all_goals simp
  · rintro rfl
    rfl

/-- Success comes from an execution of `run_helper` with the module's own timeout. -/
theorem exists_runHelper_of_success
    {rounds : Nat}
    {argv : List Bytes}
    {trace : List PamEvent}
    (ends : Ends (pamSmAuthenticate rounds argv) trace (.ok .success)) :
    ∃ before run after helperFd execArgv, trace = before ++ (run ++ after) ∧
      Ends (runHelper rounds helperFd execArgv (parseOptions argv).timeoutMs) run (.ok 0) := by
  unfold pamSmAuthenticate at ends
  dsimp only at ends
  obtain ⟨first, _, service, rfl, -, askRuser⟩ := (ends_bind_ok _ _ _ _).mp ends
  obtain ⟨second, _, ruser, rfl, -, askRhost⟩ := (ends_bind_ok _ _ _ _).mp askRuser
  obtain ⟨third, _, rhost, rfl, -, askTty⟩ := (ends_bind_ok _ _ _ _).mp askRhost
  obtain ⟨fourth, _, tty, rfl, -, askUser⟩ := (ends_bind_ok _ _ _ _).mp askTty
  obtain ⟨user, _, rfl, identified⟩ := (ends_perform_bind _ _ _ _).mp askUser
  split at identified
  · simp at identified
  · simp at identified
  · rename_i user nonempty
    split at identified
    · simp at identified
    · obtain ⟨opening, _, opened, rfl, -, started⟩ := (ends_bind_ok _ _ _ _).mp identified
      split at started
      · simp at started
      · rename_i helperFd
        obtain ⟨run, _, helperExit, rfl, ran, closes⟩ := (ends_bind_ok _ _ _ _).mp started
        obtain ⟨closed, _, rfl, mapped⟩ := (ends_perform_bind _ _ _ _).mp closes
        obtain ⟨rfl, equal⟩ := (ends_pure _ _ _).mp mapped
        obtain rfl := mapExitToPam_eq_success_iff.mp (Except.ok.inj equal).symm
        refine ⟨first ++ (second ++ (third ++ (fourth ++ ⟨.getUser, some user⟩ :: opening))), run,
          [⟨.close helperFd, closed⟩], helperFd, _, ?_, ran⟩
        simp only [List.append_assoc, List.cons_append]

/-- The helper was started, and before the timeout was judged reached it was seen to have
exited normally with status 0. -/
def ApprovedInTime (timeoutMs : UInt32) (trace : List PamEvent) : Prop :=
  ∃ (before after polls : List PamEvent) (start : Timespec) (pid : Nat),
    trace = before ++ ⟨.clockGettime, some start⟩ :: ⟨.fork, .parent pid⟩ ::
      (polls ++ ⟨.waitNoHang pid, .ended (.exited 0)⟩ :: after) ∧
    ∀ event ∈ polls, ¬JudgesTimeout start.milliseconds timeoutMs event

/-- `run_helper` returns a status of the helper only when it is seen before the timeout,
never leaves a child behind, and `pam_sm_authenticate` succeeds only with such a status. -/
theorem supervision
    (rounds : Nat)
    (helperFd : File)
    (execArgv : List Bytes)
    (timeoutMs : UInt32)
    (argv : List Bytes) :
    (∀ trace code, Ends (runHelper rounds helperFd execArgv timeoutMs) trace (.ok code) ->
      Supervised timeoutMs trace code) ∧
    (∀ trace, Steps (runHelper rounds helperFd execArgv timeoutMs) trace .exhausted ->
      rounds ≤ waits trace) ∧
    ∀ trace, Ends (pamSmAuthenticate rounds argv) trace (.ok .success) ->
      ApprovedInTime (parseOptions argv).timeoutMs trace := by
  refine ⟨fun trace code ends => supervised_of_ends ends, fun trace steps => ?_, ?_⟩
  · exact patience_runHelper.exhaustion steps fun _ _ _ _ => trivial
  · intro trace ends
    obtain ⟨before, run, after, helperFd, execArgv, rfl, ran⟩ := exists_runHelper_of_success ends
    obtain ⟨start, pid, polls, status, approved, rfl, early⟩ :=
      (supervised_of_ends ran).status (by decide) (by decide)
    obtain rfl : status = 0 := UInt8.toNat_inj.mp approved.symm
    exact ⟨before, after, polls, start, pid, by simp, early⟩

end Pam
end MacosAuth
