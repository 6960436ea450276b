import MacosAuth.Agent.Server
import Mathlib.Data.List.Perm.Subperm

/-!
# The server goes on accepting

Whatever the peers and the request handlers do, at most eight connections are served at a
time, a worker that has ended has given its slot back, and an open handle belongs to the
accept loop or to a worker that will close it.

The accept loop itself ends in one case only: a call of `accept` fails, or an accepted
socket cannot be configured. Then the error reaches the result cell of the server, and the
main thread returns it.
-/

namespace MacosAuth
namespace Agent
namespace Server

open Effect Effect.Program

/-! ## The accept loop -/

/-- The call fails in a way that ends the accept loop. -/
def isFailure : AcceptorEvent -> Bool
  | ⟨.accept, .failed _⟩ => true
  | ⟨.setNoSigPipe _, .error _⟩ => true
  | ⟨.setNonBlocking _, .error _⟩ => true
  | ⟨.setCloseOnExec _, .error _⟩ => true
  | _ => false

/-- The connection that the accept loop is busy with. -/
structure Turn where
  /-- The handle, until it is closed or submitted. -/
  handle : Option Nat
  /-- A slot was taken that no worker has yet. -/
  granted : Bool
  /-- The number of calls since the last `accept`. -/
  calls : Nat

def Turn.after (turn : Turn) : AcceptorEvent -> Turn
  | ⟨.accept, .accepted client⟩ => ⟨some client, turn.granted, 0⟩
  | ⟨.accept, _⟩ => ⟨turn.handle, turn.granted, 0⟩
  | ⟨.close _, _⟩ => ⟨none, turn.granted, turn.calls + 1⟩
  | ⟨.slotsWait, true⟩ => ⟨turn.handle, true, turn.calls + 1⟩
  | ⟨.async _ _, _⟩ => ⟨none, false, turn.calls + 1⟩
  | _ => ⟨turn.handle, turn.granted, turn.calls + 1⟩

/-- Where the accept loop stands after its calls so far. -/
def turn (past : List AcceptorEvent) : Turn :=
  past.foldl Turn.after ⟨none, false, 0⟩

@[simp] theorem turn_append (past : List AcceptorEvent) (event : AcceptorEvent) :
    turn (past ++ [event]) = (turn past).after event := by
  simp [turn]

def isAccept : AcceptorEvent -> Bool
  | ⟨.accept, _⟩ => true
  | _ => false

/-- The number of calls of `accept`. -/
def accepts (past : List AcceptorEvent) : Nat :=
  past.countP isAccept

@[simp] theorem accepts_append (past : List AcceptorEvent) (event : AcceptorEvent) :
    accepts (past ++ [event]) = accepts past + if isAccept event then 1 else 0 := by
  simp [accepts, List.countP_cons]

/-- No call has failed so far. -/
def Unfailed (past : List AcceptorEvent) : Prop :=
  ∀ event ∈ past, isFailure event = false

theorem unfailed_append
    {past : List AcceptorEvent}
    {event : AcceptorEvent} :
    Unfailed (past ++ [event]) ↔ Unfailed past ∧ isFailure event = false := by
  simp [Unfailed, or_imp, forall_and]

/-- The accept loop makes few calls for a connection. It accepts another one when nothing
has failed and the last one is dealt with, takes a slot once for a connection, submits a
connection under the slot that it took, and closes it otherwise. It reports a result only
after a failure. -/
def acceptorContract (bound : Nat) : Contract AcceptorCall AcceptorCall.Answer where
  relies _ _ := True
  allows past
    | .accept =>
        Unfailed past ∧ (turn past).handle = none ∧ (turn past).granted = false ∧
          (turn past).calls ≤ 6
    | .close fd =>
        (turn past).handle = some fd ∧ (turn past).granted = false ∧ (turn past).calls ≤ 5
    | .slotsWait => (turn past).granted = false ∧ (turn past).calls ≤ 5
    | .async fd _ =>
        (turn past).handle = some fd ∧ (turn past).granted = true ∧ (turn past).calls ≤ 5
    | .complete _ => ¬Unfailed past ∧ (turn past).calls ≤ 5
    | _ => (turn past).calls ≤ 5
  givesUp past := bound ≤ accepts past

section Acceptor

variable {bound : Nat} {past : List AcceptorEvent}

/-- The accept loop is busy with the handle, and nothing has failed. -/
structure Busy (past : List AcceptorEvent) (client calls count : Nat) : Prop where
  unfailed : Unfailed past
  handle : (turn past).handle = some client
  granted : (turn past).granted = false
  calls : (turn past).calls = calls
  count : accepts past = count

/-- The configuration of a connection has failed. -/
structure Misconfigured (past : List AcceptorEvent) (client count : Nat) : Prop where
  failed : ¬Unfailed past
  handle : (turn past).handle = some client
  granted : (turn past).granted = false
  calls : (turn past).calls ≤ 3
  count : accepts past = count

/-- The accept loop is between two connections, and nothing has failed. -/
structure Idle (past : List AcceptorEvent) (count : Nat) : Prop where
  unfailed : Unfailed past
  handle : (turn past).handle = none
  granted : (turn past).granted = false
  calls : (turn past).calls ≤ 6
  count : accepts past = count

/-- The accept loop has failed and holds nothing. -/
structure Stopped (past : List AcceptorEvent) : Prop where
  failed : ¬Unfailed past
  handle : (turn past).handle = none
  calls : (turn past).calls ≤ 5

/-- The call counts as one more for the connection and is no other step of it. -/
def Counts (past : List AcceptorEvent) (event : AcceptorEvent) : Prop :=
  isAccept event = false ∧
    (turn past).after event =
      ⟨(turn past).handle, (turn past).granted, (turn past).calls + 1⟩

/-- One more call for the connection. -/
theorem Busy.snoc
    {client calls count : Nat}
    (busy : Busy past client calls count)
    {event : AcceptorEvent}
    (fine : isFailure event = false)
    (counts : Counts past event) :
    Busy (past ++ [event]) client (calls + 1) count where
  unfailed := unfailed_append.mpr ⟨busy.unfailed, fine⟩
  handle := by rw [turn_append, counts.2, busy.handle]
  granted := by rw [turn_append, counts.2, busy.granted]
  calls := by rw [turn_append, counts.2, busy.calls]
  count := by simp [counts.1, busy.count]

theorem Busy.misconfigured
    {client calls count : Nat}
    (busy : Busy past client calls count)
    (few : calls ≤ 2)
    {event : AcceptorEvent}
    (failed : isFailure event = true)
    (counts : Counts past event) :
    Misconfigured (past ++ [event]) client count where
  failed := by
    intro unfailed
    rw [(unfailed_append.mp unfailed).2] at failed
    cases failed
  handle := by rw [turn_append, counts.2, busy.handle]
  granted := by rw [turn_append, counts.2, busy.granted]
  calls := by
    rw [turn_append, counts.2, busy.calls]
    exact Nat.succ_le_succ few
  count := by simp [counts.1, busy.count]

theorem Busy.few
    {client calls count : Nat}
    (busy : Busy past client calls count)
    (few : calls ≤ 5) :
    (turn past).calls ≤ 5 :=
  (Nat.le_of_eq busy.calls).trans few

theorem meets_configureConnectedSocket
    (strerror : Nat -> String)
    {client count : Nat}
    (busy : Busy past client 0 count) :
    (configureConnectedSocket strerror client).Meets (acceptorContract bound) past
      fun later result =>
        match result with
        | .ok _ => Busy later client 3 count
        | .error _ => Misconfigured later client count := by
  unfold configureConnectedSocket
  rw [meets_perform_bind]
  refine ⟨busy.few (by omega), fun noSigPipe _ => ?_⟩
  cases noSigPipe with
  | error code => exact busy.misconfigured (by omega) rfl ⟨rfl, rfl⟩
  | ok first =>
      have afterFirst : Busy (past ++ [⟨.setNoSigPipe client, .ok first⟩]) client 1 count :=
        busy.snoc rfl ⟨rfl, rfl⟩
      dsimp only
      rw [meets_perform_bind]
      refine ⟨afterFirst.few (by omega), fun nonBlocking _ => ?_⟩
      cases nonBlocking with
      | error code => exact afterFirst.misconfigured (by omega) rfl ⟨rfl, rfl⟩
      | ok second =>
          have afterSecond : Busy (past ++ [⟨.setNoSigPipe client, .ok first⟩] ++
              [⟨.setNonBlocking client, .ok second⟩]) client 2 count :=
            afterFirst.snoc rfl ⟨rfl, rfl⟩
          dsimp only
          rw [meets_perform_bind]
          refine ⟨afterSecond.few (by omega), fun closeOnExec _ => ?_⟩
          cases closeOnExec with
          | error code => exact afterSecond.misconfigured (by omega) rfl ⟨rfl, rfl⟩
          | ok _ => exact afterSecond.snoc rfl ⟨rfl, rfl⟩

/-- Accepting yields a configured handle, or a failure that leaves nothing open. -/
theorem meets_acceptFileHandle
    (strerror : Nat -> String)
    (interruptions : Nat)
    {count : Nat}
    (idle : Idle past count)
    (enough : bound ≤ count + interruptions) :
    (acceptFileHandle strerror interruptions).Meets (acceptorContract bound) past
      fun later result =>
        match result with
        | .ok client => ∃ more, count < more ∧ Busy later client 3 more
        | .error _ => Stopped later := by
  induction interruptions generalizing past count with
  | zero => exact enough.trans (Nat.le_of_eq idle.count.symm)
  | succ interruptions inductionHypothesis =>
      unfold acceptFileHandle
      rw [meets_perform_bind]
      refine ⟨⟨idle.unfailed, idle.handle, idle.granted, idle.calls⟩, fun result _ => ?_⟩
      have counted : accepts (past ++ [⟨.accept, result⟩]) = count + 1 := by
        simp [isAccept, idle.count]
      cases result with
      | interrupted =>
          have stillIdle : Idle (past ++ [⟨.accept, .interrupted⟩]) (count + 1) := by
            refine ⟨unfailed_append.mpr ⟨idle.unfailed, rfl⟩, ?_, ?_, ?_, counted⟩
            · rw [turn_append]
              exact idle.handle
            · rw [turn_append]
              exact idle.granted
            · rw [turn_append]
              exact Nat.zero_le 6
          refine (inductionHypothesis stillIdle (by omega)).mono ?_
          intro later result outcome
          cases result with
          | error error => exact outcome
          | ok client =>
              obtain ⟨more, larger, busy⟩ := outcome
              exact ⟨more, by omega, busy⟩
      | failed code =>
          refine ⟨fun unfailed => ?_, ?_, ?_⟩
          · exact absurd (unfailed_append.mp unfailed).2 (by simp [isFailure])
          · rw [turn_append]
            exact idle.handle
          · rw [turn_append]
            exact Nat.zero_le 5
      | accepted client =>
          have busy : Busy (past ++ [⟨.accept, .accepted client⟩]) client 0 (count + 1) := by
            refine ⟨unfailed_append.mpr ⟨idle.unfailed, rfl⟩, ?_, ?_, ?_, counted⟩
            · rw [turn_append]
              rfl
            · rw [turn_append]
              exact idle.granted
            · rw [turn_append]
              rfl
          refine Meets.attempt_bind (meets_configureConnectedSocket strerror busy) ?_
          intro later configured outcome
          cases configured with
          | ok _ => exact ⟨count + 1, by omega, outcome⟩
          | error error =>
              refine ⟨⟨outcome.handle, outcome.granted, outcome.calls.trans (by omega)⟩,
                fun _ _ => ⟨fun unfailed => ?_, ?_, ?_⟩⟩
              · exact outcome.failed (unfailed_append.mp unfailed).1
              · rw [turn_append]
                rfl
              · rw [turn_append]
                exact Nat.succ_le_succ (outcome.calls.trans (by omega))

/-- A connection is submitted under a slot, or closed. -/
theorem meets_submit
    {client count : Nat}
    {deadline : Deadline}
    (busy : Busy past client 4 count) :
    (submit client deadline).Meets (acceptorContract bound) past
      fun later result => result = .ok () ∧ Idle later count := by
  unfold submit
  rw [meets_perform_bind]
  refine ⟨⟨busy.granted, busy.few (by omega)⟩, fun free _ => ?_⟩
  cases free with
  | true =>
      refine ⟨⟨?_, ?_, ?_⟩, fun _ _ => ⟨rfl, ?_, ?_, ?_, ?_, ?_⟩⟩
      · rw [turn_append]
        exact busy.handle
      · rw [turn_append]
        rfl
      · rw [turn_append]
        exact Nat.succ_le_succ (Nat.le_of_eq busy.calls)
      · exact unfailed_append.mpr ⟨unfailed_append.mpr ⟨busy.unfailed, rfl⟩, rfl⟩
      · rw [turn_append]
        rfl
      · rw [turn_append]
        rfl
      · rw [turn_append, turn_append]
        exact Nat.succ_le_succ (Nat.succ_le_succ (Nat.le_of_eq busy.calls))
      · rw [accepts_append, accepts_append, busy.count]
        rfl
  | false =>
      have refused : Busy (past ++ [⟨.slotsWait, false⟩]) client 5 count :=
        busy.snoc rfl ⟨rfl, rfl⟩
      refine ⟨⟨refused.handle, refused.granted, refused.few (by omega)⟩,
        fun _ _ => ⟨rfl, ?_, ?_, ?_, ?_, ?_⟩⟩
      · exact unfailed_append.mpr ⟨refused.unfailed, rfl⟩
      · rw [turn_append]
        rfl
      · rw [turn_append]
        exact refused.granted
      · rw [turn_append]
        exact Nat.succ_le_succ (Nat.le_of_eq refused.calls)
      · rw [accepts_append, refused.count]
        rfl

/-- The loop ends only after a failure. -/
theorem meets_acceptLoop
    (strerror : Nat -> String)
    {interruptions count : Nat}
    (connections : Nat)
    (idle : Idle past count)
    (patient : bound ≤ interruptions)
    (enough : bound ≤ count + connections) :
    (acceptLoop strerror false interruptions connections).Meets (acceptorContract bound) past
      fun later result => Stopped later ∧ ∃ error, result = .error error := by
  induction connections generalizing past count with
  | zero => exact enough.trans (Nat.le_of_eq idle.count.symm)
  | succ connections inductionHypothesis =>
      unfold acceptLoop
      refine Meets.bind (meets_acceptFileHandle strerror interruptions idle (by omega)) ?_ ?_
      · rintro later client ⟨more, larger, busy⟩
        rw [meets_perform_bind]
        refine ⟨busy.few (by omega), fun now _ => ?_⟩
        have timed : Busy (later ++ [⟨.uptimeNs, now⟩]) client 4 more :=
          busy.snoc rfl ⟨rfl, rfl⟩
        refine Meets.bind (meets_submit timed) ?_ ?_
        · rintro final _ ⟨_, stillIdle⟩
          exact inductionHypothesis stillIdle (by omega)
        · rintro _ _ ⟨⟨⟩, _⟩
      · intro later error stopped
        exact ⟨stopped, error, rfl⟩

/-- The accept loop keeps to its contract and ends only after a failure. -/
theorem meets_acceptConnections
    (strerror : Nat -> String)
    {interruptions connections : Nat}
    (patient : bound ≤ interruptions)
    (enough : bound ≤ connections) :
    (acceptConnections strerror false interruptions connections).Meets (acceptorContract bound) []
      fun later _ => ¬Unfailed later ∧ (turn later).handle = none := by
  have idle : Idle [] 0 := ⟨by simp [Unfailed], rfl, rfl, Nat.zero_le 6, rfl⟩
  refine Meets.attempt_bind (meets_acceptLoop strerror connections idle patient (by omega)) ?_
  rintro later _ ⟨stopped, error, rfl⟩
  refine ⟨⟨stopped.failed, stopped.calls⟩, fun _ _ => ⟨fun unfailed => ?_, ?_⟩⟩
  · exact stopped.failed (unfailed_append.mp unfailed).1
  · rw [turn_append]
    exact stopped.handle

end Acceptor

/-! ## Workers -/

section Worker

variable {HandlerCall : Type} {HandlerAnswer : HandlerCall -> Type} {HandlerError : Type}

/-- An answered call of a worker. -/
abbrev WorkerEvent (HandlerAnswer : HandlerCall -> Type) :=
  Effect.Event (WorkerCall HandlerCall) (WorkerCall.Answer HandlerAnswer)

/-- The worker serves this connection. -/
def Serves (past : List (WorkerEvent HandlerAnswer)) (fd : Nat) (deadline : Deadline) : Prop :=
  ⟨.begin, (fd, deadline)⟩ ∈ past

/-- The worker has closed its handle. -/
def Closed (past : List (WorkerEvent HandlerAnswer)) : Prop :=
  ∃ fd, ⟨.close fd, ()⟩ ∈ past

/-- The worker has given its slot back. -/
def Signaled (past : List (WorkerEvent HandlerAnswer)) : Prop :=
  ⟨.slotsSignal, ()⟩ ∈ past

/-- A worker starts once, closes its own handle only, and gives its slot back once, after
it has closed the handle. -/
def workerContract (HandlerAnswer : HandlerCall -> Type) :
    Contract (WorkerCall HandlerCall) (WorkerCall.Answer HandlerAnswer) where
  relies _ _ := True
  allows past
    | .begin => past = []
    | .handler _ => past ≠ []
    | .close fd => ∃ deadline, Serves past fd deadline
    | .slotsSignal => Closed past ∧ ¬Signaled past
    | .complete _ => False
  givesUp _ := True

variable {past : List (WorkerEvent HandlerAnswer)}

/-- The worker is serving the connection and has given nothing back. -/
structure Active (past : List (WorkerEvent HandlerAnswer)) (fd : Nat) (deadline : Deadline) :
    Prop where
  serves : Serves past fd deadline
  unsignaled : ¬Signaled past

theorem meets_handle
    {fd : Nat}
    {deadline : Deadline}
    (program : Effect.Program HandlerCall HandlerAnswer HandlerError Unit)
    (active : Active past fd deadline) :
    (handle program).Meets (workerContract HandlerAnswer) past
      fun later result => result = .ok () ∧ Active later fd deadline := by
  induction program generalizing past with
  | done result => exact ⟨rfl, active⟩
  | call request next inductionHypothesis =>
      refine ⟨List.ne_nil_of_mem active.serves, fun answer _ => inductionHypothesis answer ?_⟩
      refine ⟨List.mem_append_left _ active.serves, fun signaled => ?_⟩
      rcases List.mem_append.mp signaled with old | new
      · exact active.unsignaled old
      · simp at new
  | exhausted => trivial

theorem signaled_append
    {event : WorkerEvent HandlerAnswer} :
    Signaled (past ++ [event]) ↔ Signaled past ∨ event = ⟨.slotsSignal, ()⟩ := by
  simp [Signaled, eq_comm]

theorem meets_work
    (handler : Handler HandlerAnswer HandlerError)
    {fd : Nat}
    {deadline : Deadline}
    (active : Active past fd deadline) :
    (work handler false fd deadline).Meets (workerContract HandlerAnswer) past
      fun later _ => Closed later ∧ ¬Signaled later := by
  have body : (handle (handler fd deadline) >>= fun _ =>
      (pure () : WorkerRoutine HandlerAnswer Unit)).Meets (workerContract HandlerAnswer) past
        fun later _ => Active later fd deadline := by
    refine Meets.bind (meets_handle _ active) ?_ ?_
    · rintro later _ ⟨_, stillActive⟩
      exact stillActive
    · rintro later error ⟨⟨⟩, _⟩
  refine Meets.ensuring body fun later result stillActive => ?_
  refine ⟨⟨deadline, stillActive.serves⟩, fun _ _ => ⟨⟨fd, by simp⟩, fun signaled => ?_⟩⟩
  rcases signaled_append.mp signaled with old | new
  · exact stillActive.unsignaled old
  · cases new

/-- A worker keeps to its contract, and when it ends it has closed its handle and given its
slot back. -/
theorem meets_worker
    (handler : Handler HandlerAnswer HandlerError) :
    (worker handler false).Meets (workerContract HandlerAnswer) []
      fun later _ => Closed later ∧ Signaled later := by
  unfold worker
  rw [meets_perform_bind]
  refine ⟨rfl, ?_⟩
  rintro ⟨fd, deadline⟩ _
  have active : Active ([] ++ [(⟨.begin, (fd, deadline)⟩ : WorkerEvent HandlerAnswer)]) fd
      deadline :=
    ⟨by simp [Serves], by simp [Signaled]⟩
  refine Meets.ensuring (meets_work handler active) ?_
  rintro later result ⟨closed, unsignaled⟩
  refine ⟨⟨closed, unsignaled⟩, fun _ _ => ⟨?_, by simp [Signaled]⟩⟩
  obtain ⟨fd, member⟩ := closed
  exact ⟨fd, List.mem_append_left _ member⟩

end Worker

/-! ## The main thread -/

/-- The server has no result yet. -/
def unfinishedContract : Contract MainCall MainCall.Answer where
  relies _
    | ⟨.completionValue, value⟩ => value = none
    | _ => True
  allows _ _ := True
  givesUp _ := True

theorem meets_awaitCompletion
    {past : List (Effect.Event MainCall MainCall.Answer)}
    (rounds : Nat) :
    (awaitCompletion rounds).Meets unfinishedContract past fun _ _ => False := by
  induction rounds generalizing past with
  | zero => trivial
  | succ rounds inductionHypothesis =>
      unfold awaitCompletion
      rw [meets_perform_bind]
      refine ⟨trivial, fun value relied => ?_⟩
      obtain rfl : value = none := relied
      exact ⟨trivial, fun _ _ => inductionHypothesis⟩

/-- The main thread does not end while the server has no result. -/
theorem meets_runSocketServer (rounds : Nat) :
    (runSocketServer rounds).Meets unfinishedContract [] fun _ _ => False :=
  Meets.bind (meets_awaitCompletion rounds) (fun _ _ impossible => impossible.elim)
    fun _ _ impossible => impossible

/-! ## All threads together -/

section Together

variable {HandlerCall : Type} {HandlerAnswer : HandlerCall -> Type} {HandlerError : Type}

/-- Every slot is free, about to be used, or used by a submitted connection that has not
given it back. Workers serve the connections that were submitted. An open handle belongs
to the accept loop or to a worker that has not closed it. There is no result unless the
accept loop has failed. -/
structure ServerInvariant (acceptorPast : List AcceptorEvent)
    (workerPasts : Nat -> List (WorkerEvent HandlerAnswer)) (signalers : List Nat)
    (world : World) : Prop where
  slots : world.slots + world.submitted.length +
    (if (turn acceptorPast).granted then 1 else 0) = 8 + signalers.length
  started : ∀ index, workerPasts index ≠ [] -> index < world.submitted.length
  serves : ∀ index fd deadline, Serves (workerPasts index) fd deadline ->
    world.submitted[index]? = some (fd, deadline)
  signaled : ∀ index, index ∈ signalers ↔ Signaled (workerPasts index)
  once : signalers.Nodup
  owned : ∀ fd, world.handles fd = true -> (turn acceptorPast).handle = some fd ∨
    ∃ index deadline, world.submitted[index]? = some (fd, deadline) ∧
      ¬Closed (workerPasts index)
  completed : world.completion ≠ none -> ¬Unfailed acceptorPast

variable {bound : Nat} {acceptorPast : List AcceptorEvent}
variable {workerPasts : Nat -> List (WorkerEvent HandlerAnswer)} {signalers : List Nat}
variable {world after : World}

theorem Unfailed.of_append
    {past : List AcceptorEvent}
    {event : AcceptorEvent}
    (unfailed : Unfailed (past ++ [event])) :
    Unfailed past :=
  (unfailed_append.mp unfailed).1

/-- A call of the accept loop that only counts. -/
theorem ServerInvariant.of_counts
    (invariant : ServerInvariant acceptorPast workerPasts signalers world)
    {event : AcceptorEvent}
    (handle : ((turn acceptorPast).after event).handle = (turn acceptorPast).handle)
    (granted : ((turn acceptorPast).after event).granted = (turn acceptorPast).granted) :
    ServerInvariant (acceptorPast ++ [event]) workerPasts signalers world where
  slots := by
    rw [turn_append, granted]
    exact invariant.slots
  started := invariant.started
  serves := invariant.serves
  signaled := invariant.signaled
  once := invariant.once
  owned := by
    rw [turn_append, handle]
    exact invariant.owned
  completed finished unfailed := invariant.completed finished unfailed.of_append

theorem ServerInvariant.acceptor_step
    (invariant : ServerInvariant acceptorPast workerPasts signalers world)
    {request : AcceptorCall}
    {answer : request.Answer}
    (allowed : (acceptorContract bound).allows acceptorPast request)
    (served : world.ServesAcceptor request answer after) :
    ServerInvariant (acceptorPast ++ [⟨request, answer⟩]) workerPasts signalers after := by
  cases request with
  | accept =>
      obtain ⟨_, free, _, _⟩ := allowed
      cases answer with
      | accepted client =>
          obtain ⟨_, rfl⟩ := served
          refine ⟨?_, invariant.started, invariant.serves, invariant.signaled, invariant.once,
            fun fd opened => ?_, fun finished unfailed =>
              invariant.completed finished unfailed.of_append⟩
          · rw [turn_append]
            exact invariant.slots
          · rw [turn_append]
            by_cases same : fd = client
            · exact .inl (congrArg some same.symm)
            · have earlier : world.handles fd = true := by
                simpa [Function.update_of_ne same] using opened
              rcases invariant.owned fd earlier with held | worker
              · rw [free] at held
                cases held
              · exact .inr worker
      | interrupted =>
          obtain rfl : after = world := served
          exact invariant.of_counts rfl rfl
      | failed code =>
          obtain rfl : after = world := served
          exact invariant.of_counts rfl rfl
  | setNoSigPipe fd =>
      obtain rfl : after = world := served
      exact invariant.of_counts rfl rfl
  | setNonBlocking fd =>
      obtain rfl : after = world := served
      exact invariant.of_counts rfl rfl
  | setCloseOnExec fd =>
      obtain rfl : after = world := served
      exact invariant.of_counts rfl rfl
  | uptimeNs =>
      obtain rfl : after = world := served
      exact invariant.of_counts rfl rfl
  | close fd =>
      obtain ⟨held, _, _⟩ := allowed
      obtain rfl := served
      refine ⟨?_, invariant.started, invariant.serves, invariant.signaled, invariant.once,
        fun other opened => .inr ?_, fun finished unfailed =>
          invariant.completed finished unfailed.of_append⟩
      · rw [turn_append]
        exact invariant.slots
      · have different : other ≠ fd := by
          rintro rfl
          simp at opened
        have earlier : world.handles other = true := by
          simpa [Function.update_of_ne different] using opened
        refine (invariant.owned other earlier).resolve_left fun same => different ?_
        exact Option.some.inj (same.symm.trans held)
  | slotsWait =>
      obtain ⟨ungranted, _⟩ := allowed
      have counted := invariant.slots
      rw [ungranted] at counted
      cases answer with
      | true =>
          obtain ⟨free, rfl⟩ := served
          refine ⟨?_, invariant.started, invariant.serves, invariant.signaled, invariant.once,
            ?_, fun finished unfailed => invariant.completed finished unfailed.of_append⟩
          · rw [turn_append]
            simp only [Turn.after, if_true]
            simp at counted
            omega
          · rw [turn_append]
            exact invariant.owned
      | false =>
          obtain ⟨_, rfl⟩ := served
          exact invariant.of_counts rfl rfl
  | async fd deadline =>
      obtain ⟨held, granted, _⟩ := allowed
      obtain rfl := served
      have counted := invariant.slots
      rw [granted] at counted
      have fresh : ¬Closed (workerPasts world.submitted.length) := by
        have unstarted : workerPasts world.submitted.length = [] := by
          by_contra begun
          exact Nat.lt_irrefl _ (invariant.started _ begun)
        simp [Closed, unstarted]
      refine ⟨?_, fun index begun => ?_, fun index target limit serves => ?_,
        invariant.signaled, invariant.once, fun other opened => .inr ?_,
        fun finished unfailed => invariant.completed finished unfailed.of_append⟩
      · rw [turn_append]
        simp [Turn.after] at counted ⊢
        omega
      · rw [List.length_append]
        exact Nat.lt_add_right _ (invariant.started index begun)
      · have known := invariant.serves index target limit serves
        exact List.getElem?_append_left (List.getElem?_eq_some_iff.mp known).1 ▸ known
      · rcases invariant.owned other opened with same | ⟨index, limit, known, unclosed⟩
        · obtain rfl := Option.some.inj (held.symm.trans same)
          exact ⟨_, deadline, List.getElem?_concat_length, fresh⟩
        · refine ⟨index, limit, ?_, unclosed⟩
          rw [List.getElem?_append_left (List.getElem?_eq_some_iff.mp known).1, known]
  | complete result =>
      obtain ⟨failed, _⟩ := allowed
      obtain rfl := served
      have counted : ServerInvariant (acceptorPast ++ [⟨.complete result, ()⟩]) workerPasts
          signalers world :=
        invariant.of_counts rfl rfl
      exact { counted with completed := fun _ unfailed => failed unfailed.of_append }

/-- The calls of a worker that give a slot back. -/
def isSignal : WorkerEvent HandlerAnswer -> Bool
  | ⟨.slotsSignal, _⟩ => true
  | _ => false

theorem signaled_snoc
    {past : List (WorkerEvent HandlerAnswer)}
    {event : WorkerEvent HandlerAnswer} :
    Signaled (past ++ [event]) ↔ Signaled past ∨ isSignal event = true := by
  rw [signaled_append]
  refine or_congr_right ⟨?_, fun signals => ?_⟩
  · rintro rfl
    rfl
  · unfold isSignal at signals
    split at signals
    · rfl
    · cases signals

/-- What a call of a worker leaves to be shown: the slots, what it serves if it starts, and
who owns the handles. -/
theorem ServerInvariant.of_worker
    (invariant : ServerInvariant acceptorPast workerPasts signalers world)
    {index : Nat}
    {event : WorkerEvent HandlerAnswer}
    (submitted : after.submitted = world.submitted)
    (completion : after.completion = world.completion)
    (known : index < world.submitted.length)
    (serves : ∀ fd deadline, event = ⟨.begin, (fd, deadline)⟩ ->
      world.submitted[index]? = some (fd, deadline))
    (slots : after.slots = world.slots + if isSignal event then 1 else 0)
    (fresh : isSignal event = true -> ¬Signaled (workerPasts index))
    (owned : ∀ fd, after.handles fd = true -> (turn acceptorPast).handle = some fd ∨
      ∃ other deadline, world.submitted[other]? = some (fd, deadline) ∧
        ¬Closed (Function.update workerPasts index (workerPasts index ++ [event]) other)) :
    ServerInvariant acceptorPast
      (Function.update workerPasts index (workerPasts index ++ [event]))
      (if isSignal event then signalers ++ [index] else signalers) after where
  slots := by
    have counted := invariant.slots
    rw [submitted, slots]
    cases isSignal event <;> simp <;> omega
  started := by
    intro other begun
    rw [submitted]
    by_cases same : other = index
    · exact same ▸ known
    · rw [Function.update_of_ne same] at begun
      exact invariant.started other begun
  serves := by
    intro other fd deadline served
    rw [submitted]
    by_cases same : other = index
    · subst same
      rw [Function.update_self] at served
      rcases List.mem_append.mp served with old | new
      · exact invariant.serves other fd deadline old
      · exact serves fd deadline (List.mem_singleton.mp new).symm
    · rw [Function.update_of_ne same] at served
      exact invariant.serves other fd deadline served
  signaled := by
    intro other
    by_cases same : other = index
    · subst same
      rw [Function.update_self, signaled_snoc, ← invariant.signaled]
      cases isSignal event <;> simp
    · rw [Function.update_of_ne same, ← invariant.signaled]
      cases isSignal event <;> simp [same]
  once := by
    cases signals : isSignal event with
    | false => exact invariant.once
    | true =>
        refine List.nodup_append.mpr ⟨invariant.once, by simp, ?_⟩
        rintro earlier member _ (_ | ⟨_, ⟨⟩⟩) rfl
        exact fresh signals ((invariant.signaled _).mp member)
  owned := by
    rw [submitted]
    exact owned
  completed := by
    rw [completion]
    exact invariant.completed

/-- A call that closes nothing leaves the handles with their owners. -/
theorem ServerInvariant.owned_of_open
    (invariant : ServerInvariant acceptorPast workerPasts signalers world)
    {index fd : Nat}
    {event : WorkerEvent HandlerAnswer}
    (keeps : ∀ closed, event ≠ ⟨.close closed, ()⟩)
    (opened : world.handles fd = true) :
    (turn acceptorPast).handle = some fd ∨
      ∃ other deadline, world.submitted[other]? = some (fd, deadline) ∧
        ¬Closed (Function.update workerPasts index (workerPasts index ++ [event]) other) := by
  rcases invariant.owned fd opened with held | ⟨other, deadline, known, unclosed⟩
  · exact .inl held
  · refine .inr ⟨other, deadline, known, ?_⟩
    by_cases same : other = index
    · subst same
      rw [Function.update_self]
      rintro ⟨closed, member⟩
      rcases List.mem_append.mp member with old | new
      · exact unclosed ⟨closed, old⟩
      · exact keeps closed (List.mem_singleton.mp new).symm
    · rwa [Function.update_of_ne same]

theorem ServerInvariant.worker_step
    (invariant : ServerInvariant acceptorPast workerPasts signalers world)
    {index : Nat}
    {request : WorkerCall HandlerCall}
    {answer : request.Answer HandlerAnswer}
    (allowed : (workerContract HandlerAnswer).allows (workerPasts index) request)
    (served : world.ServesWorker index request answer after) :
    ServerInvariant acceptorPast
      (Function.update workerPasts index (workerPasts index ++ [⟨request, answer⟩]))
      (if isSignal (⟨request, answer⟩ : WorkerEvent HandlerAnswer) then signalers ++ [index]
        else signalers) after := by
  cases request with
  | begin =>
      obtain ⟨found, rfl⟩ := served
      refine invariant.of_worker rfl rfl (List.getElem?_eq_some_iff.mp found).1 ?_ rfl
        (by simp [isSignal]) fun fd opened => invariant.owned_of_open (by simp) opened
      rintro fd deadline ⟨⟩
      exact found
  | handler request =>
      obtain rfl : after = world := served
      exact invariant.of_worker rfl rfl (invariant.started index allowed) (by simp) rfl
        (by simp [isSignal]) fun fd opened => invariant.owned_of_open (by simp) opened
  | close fd =>
      obtain ⟨deadline, serves⟩ := allowed
      obtain rfl := served
      have own := invariant.serves index fd deadline serves
      refine invariant.of_worker rfl rfl (List.getElem?_eq_some_iff.mp own).1 (by simp) rfl
        (by simp [isSignal]) fun other opened => ?_
      have different : other ≠ fd := by
        rintro rfl
        simp at opened
      have earlier : world.handles other = true := by
        simpa [Function.update_of_ne different] using opened
      rcases invariant.owned other earlier with held | ⟨owner, limit, known, unclosed⟩
      · exact .inl held
      · refine .inr ⟨owner, limit, known, ?_⟩
        rw [Function.update_of_ne]
        · exact unclosed
        · rintro rfl
          exact different (congrArg Prod.fst (Option.some.inj (known.symm.trans own)))
  | slotsSignal =>
      obtain ⟨⟨closed, member⟩, unsignaled⟩ := allowed
      obtain rfl := served
      exact invariant.of_worker rfl rfl (invariant.started index (List.ne_nil_of_mem member))
        (by simp) rfl (fun _ => unsignaled) fun fd opened =>
          invariant.owned_of_open (by simp) opened
  | complete result => exact allowed.elim

/-! ## Runs -/

/-- A call of one of the threads. -/
abbrev ServerEntry (HandlerAnswer : HandlerCall -> Type) :=
  Entry (Party.Call HandlerCall) (Party.Answer HandlerAnswer)

/-- The worker that gives its slot back in this call. -/
def signaler : ServerEntry HandlerAnswer -> Option Nat
  | ⟨.acceptor, _⟩ => none
  | ⟨.main, _⟩ => none
  | ⟨.worker index, event⟩ => if isSignal event then some index else none

/-- The workers that have given their slots back. -/
def signalersOf (history : List (ServerEntry HandlerAnswer)) : List Nat :=
  history.filterMap signaler

variable {strerror : Nat -> String} {rounds : Rounds}
variable {handler : Handler HandlerAnswer HandlerError}
variable {history : List (ServerEntry HandlerAnswer)}
variable {pool : Pool (Party.Call HandlerCall) (Party.Answer HandlerAnswer) (fun _ => Failure)
  (fun _ => Unit)}

/-- How many connections the model runs for at least. -/
def Rounds.least (rounds : Rounds) : Nat :=
  min rounds.interruptions rounds.connections

theorem acceptor_meets
    (run : (server HandlerAnswer).Run (threads strerror false rounds handler) World.start history
      pool world) :
    (pool .acceptor).Meets (acceptorContract rounds.least) (traceOf Party.acceptor history)
      fun later _ => ¬Unfailed later ∧ (turn later).handle = none :=
  run.meets Party.acceptor (meets_acceptConnections strerror (Nat.min_le_left _ _) (Nat.min_le_right _ _))
    fun _ _ _ _ => trivial

theorem worker_meets
    (run : (server HandlerAnswer).Run (threads strerror false rounds handler) World.start history
      pool world)
    (index : Nat) :
    (pool (.worker index)).Meets (workerContract HandlerAnswer)
      (traceOf (Party.worker index) history) fun later _ => Closed later ∧ Signaled later :=
  run.meets (Party.worker index) (meets_worker handler) fun _ _ _ _ => trivial

theorem signalersOf_append (first second : List (ServerEntry HandlerAnswer)) :
    signalersOf (first ++ second) = signalersOf first ++ signalersOf second := by
  simp [signalersOf]

/-- The main thread only looks. -/
theorem unchanged_of_servesMain
    {request : MainCall}
    {answer : request.Answer}
    (served : world.ServesMain request answer after) :
    after = world := by
  cases request with
  | completionValue => exact served.2
  | runRunLoop => exact served

/-- The invariant holds at every time. -/
theorem serverInvariant_of_run
    (run : (server HandlerAnswer).Run (threads strerror false rounds handler) World.start history
      pool world) :
    ServerInvariant (traceOf Party.acceptor history)
      (fun index => traceOf (Party.worker index) history) (signalersOf history) world := by
  induction run with
  | start => exact ⟨rfl, by simp, by simp [Serves], by simp [signalersOf, Signaled], .nil,
      by simp [World.start], by simp [World.start]⟩
  | @step history pool before after thread request next answer run current served
      inductionHypothesis =>
      cases thread with
      | acceptor =>
          have meets := acceptor_meets run
          rw [current] at meets
          have stepped := inductionHypothesis.acceptor_step meets.1 served
          have others : (fun index => traceOf (Party.worker index)
              (history ++ [⟨Party.acceptor, request, answer⟩])) =
              fun index => traceOf (Party.worker index) history := by
            funext index
            rw [traceOf_append, traceOf_other (by simp), List.append_nil]
          have silent : signalersOf [(⟨Party.acceptor, request, answer⟩ :
              ServerEntry HandlerAnswer)] = [] := rfl
          rw [others, traceOf_append, traceOf_own, signalersOf_append, silent, List.append_nil]
          exact stepped
      | main =>
          have others : (fun index => traceOf (Party.worker index)
              (history ++ [⟨Party.main, request, answer⟩])) =
              fun index => traceOf (Party.worker index) history := by
            funext index
            rw [traceOf_append, traceOf_other (by simp), List.append_nil]
          have silent : signalersOf [(⟨Party.main, request, answer⟩ :
              ServerEntry HandlerAnswer)] = [] := rfl
          rw [others, traceOf_append, traceOf_other (by simp), List.append_nil,
            signalersOf_append, silent, List.append_nil, unchanged_of_servesMain served]
          exact inductionHypothesis
      | worker index =>
          have meets := worker_meets run index
          rw [current] at meets
          have stepped := inductionHypothesis.worker_step meets.1 served
          have others : (fun other => traceOf (Party.worker other)
              (history ++ [⟨Party.worker index, request, answer⟩])) =
              Function.update (fun other => traceOf (Party.worker other) history) index
                (traceOf (Party.worker index) history ++ [⟨request, answer⟩]) := by
            funext other
            by_cases same : other = index
            · subst same
              rw [traceOf_append, traceOf_own, Function.update_self]
            · rw [Function.update_of_ne same, traceOf_append,
                traceOf_other (by simpa using Ne.symm same), List.append_nil]
          rw [others, traceOf_append, traceOf_other (by simp), List.append_nil,
            signalersOf_append]
          cases signals : isSignal (⟨request, answer⟩ : WorkerEvent HandlerAnswer) <;>
            simpa [signalersOf, signaler, signals] using stepped
  | drift _ drifted _ => exact drifted.elim

/-- The server goes on: the accept loop has not ended, and comes back to `accept` after six
calls at most; the main thread waits on. Only the number of connections for which the model
runs can stop the loop. -/
structure GoesOn (rounds : Rounds) (history : List (ServerEntry HandlerAnswer))
    (pool : Pool (Party.Call HandlerCall) (Party.Answer HandlerAnswer) (fun _ => Failure)
      (fun _ => Unit))
    (world : World) : Prop where
  accepting : ∀ result, pool .acceptor ≠ .done result
  enough : pool .acceptor = .exhausted -> rounds.least ≤ accepts (traceOf Party.acceptor history)
  prompt : ∀ before after, traceOf Party.acceptor history = before ++ after ->
    (∀ event ∈ after, isAccept event = false) -> after.length ≤ 6
  waiting : ∀ result, pool .main ≠ .done result
  unfinished : world.completion = none

/-- At most eight workers run at a time; a worker that has ended has closed its handle and
given its slot back, and every slot that is neither free nor reserved for the connection at
hand is used by a connection whose worker has not ended; an open handle belongs to the
accept loop or to a worker that has not ended. -/
structure Orderly (history : List (ServerEntry HandlerAnswer))
    (pool : Pool (Party.Call HandlerCall) (Party.Answer HandlerAnswer) (fun _ => Failure)
      (fun _ => Unit))
    (world : World) : Prop where
  eight : ∀ workers : List Nat, workers.Nodup ->
    (∀ index ∈ workers, index < world.submitted.length ∧
      ¬Signaled (traceOf (Party.worker index) history)) -> workers.length ≤ 8
  slots : world.slots + world.submitted.length +
    (if (turn (traceOf Party.acceptor history)).granted then 1 else 0) =
      8 + (signalersOf history).length
  freed : ∀ index result, pool (.worker index) = .done result ->
    index ∈ signalersOf history ∧ Closed (traceOf (Party.worker index) history)
  owned : ∀ fd, world.handles fd = true ->
    ((turn (traceOf Party.acceptor history)).handle = some fd ∧
      ∀ result, pool .acceptor ≠ .done result) ∨
    ∃ index deadline, world.submitted[index]? = some (fd, deadline) ∧
      ∀ result, pool (.worker index) ≠ .done result

/-- Calls other than `accept` count. -/
theorem calls_append
    {before after : List AcceptorEvent}
    (others : ∀ event ∈ after, isAccept event = false) :
    (turn (before ++ after)).calls = (turn before).calls + after.length := by
  induction after using List.reverseRecOn with
  | nil => simp
  | append_singleton after event inductionHypothesis =>
      have counted := inductionHypothesis fun earlier member => others earlier (by simp [member])
      have other := others event (by simp)
      rw [← List.append_assoc, turn_append, List.length_append, List.length_singleton,
        ← Nat.add_assoc, ← counted]
      unfold Turn.after
      split
      · cases other
      · cases other
      · rfl
      · rfl
      · rfl
      · rfl

theorem calls_le
    (run : (server HandlerAnswer).Run (threads strerror false rounds handler) World.start history
      pool world) :
    (turn (traceOf Party.acceptor history)).calls ≤ 6 := by
  rcases List.eq_nil_or_concat (traceOf Party.acceptor history) with
    unstarted | ⟨before, event, split⟩
  · rw [unstarted]
    exact Nat.zero_le 6
  · obtain ⟨request, answer⟩ := event
    rw [List.concat_eq_append] at split
    have allowed := run.allowed Party.acceptor (meets_acceptConnections strerror
      (Nat.min_le_left _ _) (Nat.min_le_right _ _)) (fun _ _ _ _ => trivial) split
    rw [split]
    cases request with
    | accept =>
        rw [turn_append]
        cases answer <;> exact Nat.zero_le 6
    | close fd =>
        rw [calls_append (by simp [isAccept])]
        exact Nat.succ_le_succ allowed.2.2
    | slotsWait =>
        rw [calls_append (by simp [isAccept])]
        exact Nat.succ_le_succ allowed.2
    | async fd deadline =>
        rw [calls_append (by simp [isAccept])]
        exact Nat.succ_le_succ allowed.2.2
    | complete result =>
        rw [calls_append (by simp [isAccept])]
        exact Nat.succ_le_succ allowed.2
    | setNoSigPipe fd =>
        rw [calls_append (by simp [isAccept])]
        exact Nat.succ_le_succ allowed
    | setNonBlocking fd =>
        rw [calls_append (by simp [isAccept])]
        exact Nat.succ_le_succ allowed
    | setCloseOnExec fd =>
        rw [calls_append (by simp [isAccept])]
        exact Nat.succ_le_succ allowed
    | uptimeNs =>
        rw [calls_append (by simp [isAccept])]
        exact Nat.succ_le_succ allowed

/-- Without a failure the main thread is told that there is no result. -/
theorem main_meets
    (run : (server HandlerAnswer).Run (threads strerror false rounds handler) World.start history
      pool world)
    (unfailed : Unfailed (traceOf Party.acceptor history)) :
    (pool .main).Meets unfinishedContract (traceOf Party.main history) fun _ _ => False := by
  refine run.meets Party.main (meets_runSocketServer rounds.polls) ?_
  intro before event after split
  obtain ⟨request, answer⟩ := event
  cases request with
  | runRunLoop => trivial
  | completionValue =>
      obtain ⟨past, future, rfl, _, _⟩ := System.exists_split_of_traceOf split
      obtain ⟨_, earlier, _, run', known, _⟩ := run.exists_before rfl
      have invariant := serverInvariant_of_run run'
      have earlyUnfailed : Unfailed (traceOf Party.acceptor past) := by
        intro failed member
        rw [traceOf_append] at unfailed
        exact unfailed failed (List.mem_append_left _ member)
      by_contra finished
      exact invariant.completed (known ▸ finished) earlyUnfailed

theorem orderly_of_run
    (run : (server HandlerAnswer).Run (threads strerror false rounds handler) World.start history
      pool world) :
    Orderly history pool world := by
  have invariant := serverInvariant_of_run run
  have ended {index : Nat} {result : Except Failure Unit}
      (finished : pool (.worker index) = .done result) :
      Closed (traceOf (Party.worker index) history) ∧
        Signaled (traceOf (Party.worker index) history) := by
    have meets := worker_meets run index
    rw [finished] at meets
    exact meets
  refine ⟨?_, invariant.slots, ?_, ?_⟩
  · intro workers distinct active
    -- the active workers and those that have signaled are different submitted ones
    have apart : (workers ++ signalersOf history).Nodup := by
      refine List.nodup_append.mpr ⟨distinct, invariant.once, ?_⟩
      rintro index member _ signaled rfl
      exact (active index member).2 ((invariant.signaled index).mp signaled)
    have within : workers ++ signalersOf history ⊆ List.range world.submitted.length := by
      intro index member
      rw [List.mem_range]
      rcases List.mem_append.mp member with isActive | signaled
      · exact (active index isActive).1
      · exact invariant.started index
          (List.ne_nil_of_mem ((invariant.signaled index).mp signaled))
    have bounded := (apart.subperm within).length_le
    have counted := invariant.slots
    rw [List.length_append, List.length_range] at bounded
    omega
  · intro index result finished
    exact ⟨(invariant.signaled index).mpr (ended finished).2, (ended finished).1⟩
  · intro fd opened
    rcases invariant.owned fd opened with held | ⟨index, deadline, known, unclosed⟩
    · refine .inl ⟨held, fun result finished => ?_⟩
      have meets := acceptor_meets run
      rw [finished] at meets
      exact absurd (held.symm.trans meets.2) (by simp)
    · exact .inr ⟨index, deadline, known, fun result finished => unclosed (ended finished).1⟩

/-- As long as no call of `accept` fails and every accepted socket can be configured, the
server goes on accepting, whatever the handlers do, and its workers are orderly. -/
theorem runSocketServer_goesOn
    (run : (server HandlerAnswer).Run (threads strerror false rounds handler) World.start history
      pool world)
    (unfailed : Unfailed (traceOf Party.acceptor history)) :
    GoesOn rounds history pool world ∧ Orderly history pool world := by
  have invariant := serverInvariant_of_run run
  have acceptor := acceptor_meets run
  refine ⟨⟨?_, ?_, ?_, ?_, ?_⟩, orderly_of_run run⟩
  · intro result finished
    rw [finished] at acceptor
    exact acceptor.1 unfailed
  · intro exhausted
    rw [exhausted] at acceptor
    exact acceptor
  · intro before after split others
    have few := calls_le run
    rw [split, calls_append others] at few
    omega
  · intro result finished
    have main := main_meets run unfailed
    rw [finished] at main
    exact main
  · by_contra finished
    exact invariant.completed finished unfailed

end Together

/-! ## Sample runs -/

/-- The answers to a handler that makes no calls. -/
@[reducible] def NoAnswer (request : Empty) : Type :=
  request.elim

/-- A handler that only throws. -/
def throwingHandler : Handler NoAnswer Unit :=
  fun _ _ => .done (.error ())

def sampleStrerror (code : Nat) : String :=
  if code = 22 then "Invalid argument" else "Unknown error"

/-- A world that accepts a connection whenever the last one is closed, and in which the peers
may be gone before their sockets are configured. -/
def World.answerAcceptor (gone : Bool) (world : World) :
    (request : AcceptorCall) -> request.Answer × World
  | .accept =>
      if world.handles 4 then
        (.interrupted, world)
      else
        (.accepted 4, { world with handles := Function.update world.handles 4 true })
  | .setNoSigPipe _ => (if gone then .error 22 else .ok (), world)
  | .setNonBlocking _ => (.ok (), world)
  | .setCloseOnExec _ => (.ok (), world)
  | .close fd => ((), { world with handles := Function.update world.handles fd false })
  | .uptimeNs => (0, world)
  | .slotsWait =>
      if world.slots = 0 then
        (false, world)
      else
        (true, { world with slots := world.slots - 1 })
  | .async fd deadline =>
      ((), { world with submitted := world.submitted ++ [(fd, deadline)] })
  | .complete result => ((), world.complete result)

theorem World.answerAcceptor_faithful
    (gone : Bool)
    (world : World)
    (request : AcceptorCall) :
    (server NoAnswer).serves Party.acceptor world request
      (world.answerAcceptor gone request).1 (world.answerAcceptor gone request).2 := by
  cases request with
  | accept =>
      by_cases opened : world.handles 4 = true
      · simp [server, World.answerAcceptor, World.ServesAcceptor, opened]
      · simp [server, World.answerAcceptor, World.ServesAcceptor, opened]
  | slotsWait =>
      by_cases empty : world.slots = 0
      · simp [server, World.answerAcceptor, World.ServesAcceptor, empty]
      · simp [server, World.answerAcceptor, World.ServesAcceptor, empty]
        omega
  | setNoSigPipe fd => rfl
  | setNonBlocking fd => rfl
  | setCloseOnExec fd => rfl
  | close fd => rfl
  | uptimeNs => rfl
  | async fd deadline => rfl
  | complete result => rfl

def World.answerMain (world : World) : (request : MainCall) -> request.Answer × World
  | .completionValue => (world.completion, world)
  | .runRunLoop => ((), world)

theorem World.answerMain_faithful
    (world : World)
    (request : MainCall) :
    (server NoAnswer).serves Party.main world request
      (world.answerMain request).1 (world.answerMain request).2 := by
  cases request with
  | completionValue => exact ⟨rfl, rfl⟩
  | runRunLoop => rfl

/-- How the world answers the first worker. -/
def World.answerWorker (world : World) :
    (request : WorkerCall Empty) -> request.Answer NoAnswer × World
  | .begin => (world.submitted.headD (0, ⟨0⟩), world)
  | .handler request => request.elim
  | .close fd => ((), { world with handles := Function.update world.handles fd false })
  | .slotsSignal => ((), { world with slots := world.slots + 1 })
  | .complete result => ((), world.complete result)

theorem World.answerWorker_faithful
    (world : World)
    (request : WorkerCall Empty)
    (some : world.submitted ≠ []) :
    (server NoAnswer).serves (Party.worker 0) world
        request (world.answerWorker request).1 (world.answerWorker request).2 ∧
      (world.answerWorker request).2.submitted ≠ [] := by
  cases request with
  | begin =>
      refine ⟨⟨?_, rfl⟩, some⟩
      obtain ⟨first, rest, known⟩ := List.exists_cons_of_ne_nil some
      simp [World.answerWorker, known]
  | handler request => exact request.elim
  | close fd => exact ⟨rfl, some⟩
  | slotsSignal => exact ⟨rfl, some⟩
  | complete result => exact ⟨rfl, some⟩

/-- The threads of a server whose handler throws. -/
abbrev sampleThreads : Pool (Party.Call Empty) (Party.Answer NoAnswer) (fun _ => Failure)
    (fun _ => Unit) :=
  threads sampleStrerror false ⟨2, 2, 2⟩ throwingHandler

variable {history : List (ServerEntry NoAnswer)}
variable {pool : Pool (Party.Call Empty) (Party.Answer NoAnswer) (fun _ => Failure) (fun _ => Unit)}
variable {world : World}

theorem follow_acceptor
    (gone : Bool)
    (fuel : Nat)
    (run : (server NoAnswer).Run sampleThreads World.start history pool world) :
    (server NoAnswer).Run sampleThreads World.start
      (history ++ (System.follow (World.answerAcceptor gone) fuel (pool .acceptor) world).1.map
        (Entry.mk Party.acceptor))
      (Function.update pool Party.acceptor
        (System.follow (World.answerAcceptor gone) fuel (pool .acceptor) world).2.1)
      (System.follow (World.answerAcceptor gone) fuel (pool .acceptor) world).2.2 := by
  apply run.follow
  exact World.answerAcceptor_faithful gone

theorem follow_main
    (fuel : Nat)
    (run : (server NoAnswer).Run sampleThreads World.start history pool world) :
    (server NoAnswer).Run sampleThreads World.start
      (history ++ (System.follow World.answerMain fuel (pool .main) world).1.map
        (Entry.mk Party.main))
      (Function.update pool Party.main
        (System.follow World.answerMain fuel (pool .main) world).2.1)
      (System.follow World.answerMain fuel (pool .main) world).2.2 := by
  apply run.follow
  exact World.answerMain_faithful

theorem follow_worker
    (fuel : Nat)
    (some : world.submitted ≠ [])
    (run : (server NoAnswer).Run sampleThreads World.start history pool world) :
    (server NoAnswer).Run sampleThreads World.start
      (history ++ (System.follow World.answerWorker fuel (pool (.worker 0)) world).1.map
        (Entry.mk (Party.worker 0)))
      (Function.update pool (Party.worker 0)
        (System.follow World.answerWorker fuel (pool (.worker 0)) world).2.1)
      (System.follow World.answerWorker fuel (pool (.worker 0)) world).2.2 := by
  have faithful : ∀ (world : World) (request : Party.Call Empty (.worker 0)),
      world.submitted ≠ [] ->
        (server NoAnswer).serves (Party.worker 0) (id world) request
            (world.answerWorker request).1 (id (world.answerWorker request).2) ∧
          (world.answerWorker request).2.submitted ≠ [] :=
    World.answerWorker_faithful
  exact (System.Run.follow_through id (fun world : World => world.submitted ≠ []) faithful run
    some fuel).1

theorem unfailed_of_all
    {past : List AcceptorEvent}
    (all : past.all (fun event => !isFailure event) = true) :
    Unfailed past := by
  intro event member
  simpa using List.all_eq_true.mp all event member

/-- The accept loop goes on after a connection whose handler throws. -/
theorem runSocketServer_goesOn_throwing :
    ∃ history pool world,
      (server NoAnswer).Run sampleThreads World.start history pool world ∧
      Signaled (traceOf (Party.worker 0) history) ∧
      accepts (traceOf Party.acceptor history) = 2 ∧
      GoesOn ⟨2, 2, 2⟩ history pool world ∧ Orderly history pool world := by
  have accepted := follow_acceptor false 7 .start
  have served := follow_worker 3 (List.cons_ne_nil _ _) accepted
  have again := follow_acceptor false 1 served
  refine ⟨_, _, _, again, ?_, ?_, runSocketServer_goesOn again ?_⟩
  · rw [Signaled, mem_traceOf]
    exact List.mem_append_left _ (List.mem_append_right _ (by exact .tail _ (.tail _ (.head _))))
  · rfl
  · exact unfailed_of_all rfl

/-- A peer that disconnects before its socket is configured stops the server. -/
theorem runSocketServer_not_goesOn :
    ∃ history pool world,
      (server NoAnswer).Run sampleThreads World.start history pool world ∧
      pool .acceptor = .done (.ok ()) ∧
      pool .main = .done (.error (.agent (.socket "Invalid argument"))) := by
  have stopped := follow_acceptor true 4 .start
  exact ⟨_, _, _, follow_main 2 stopped, rfl, rfl⟩

end Server
end Agent
end MacosAuth
