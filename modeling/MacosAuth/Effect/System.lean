import MacosAuth.Effect.Contract
import Mathlib.Logic.Function.Basic

/-!
# Threads that share a world

A system answers the calls of many threads from one shared world. A run
interleaves the threads in any order: each step lets one thread make its next
call, and between two steps the world may change on its own. The history of a
run lists the calls of all threads in the order in which they were answered, and
the part that belongs to one thread is an execution of its program.
-/

namespace Effect

variable {ι : Type} {Call : ι -> Type} {Answer : (thread : ι) -> Call thread -> Type}
variable {σ : Type} {ε α : ι -> Type}

/-- How a world of type `σ` answers calls, and how it changes on its own. -/
structure System (ι : Type) (Call : ι -> Type)
    (Answer : (thread : ι) -> Call thread -> Type) (σ : Type) where
  /-- The call may be answered so, which leads from the first world to the second. -/
  serves : (thread : ι) -> σ -> (request : Call thread) -> Answer thread request -> σ -> Prop
  /-- The world may change so between two calls. -/
  drifts : σ -> σ -> Prop

/-- One answered call of one thread. -/
structure Entry (Call : ι -> Type) (Answer : (thread : ι) -> Call thread -> Type) where
  /-- The thread that made the call. -/
  thread : ι
  /-- The call and its answer. -/
  event : Event (Call thread) (Answer thread)

/-- A program for each thread. -/
abbrev Pool (Call : ι -> Type) (Answer : (thread : ι) -> Call thread -> Type)
    (ε α : ι -> Type) :=
  (thread : ι) -> Program (Call thread) (Answer thread) (ε thread) (α thread)

/-- The calls of one thread, in order. -/
def traceOf [DecidableEq ι] (thread : ι) (history : List (Entry Call Answer)) :
    List (Event (Call thread) (Answer thread)) :=
  history.filterMap fun entry =>
    if same : entry.thread = thread then some (same ▸ entry.event) else none

namespace System

variable [DecidableEq ι]

/-- `Run system programs start history pool world`: the threads started with
`programs` in the world `start`, made the calls of `history`, and `pool` and
`world` are what remains of them and of the world. -/
inductive Run (system : System ι Call Answer σ) (programs : Pool Call Answer ε α)
    (start : σ) : List (Entry Call Answer) -> Pool Call Answer ε α -> σ -> Prop
  | start : Run system programs start [] programs start
  | step {history : List (Entry Call Answer)} {pool : Pool Call Answer ε α}
      {world world' : σ} {thread : ι} {request : Call thread}
      {next : Answer thread request ->
        Program (Call thread) (Answer thread) (ε thread) (α thread)}
      {answer : Answer thread request} :
      Run system programs start history pool world ->
      pool thread = .call request next ->
      system.serves thread world request answer world' ->
      Run system programs start (history ++ [⟨thread, request, answer⟩])
        (Function.update pool thread (next answer)) world'
  | drift {history : List (Entry Call Answer)} {pool : Pool Call Answer ε α}
      {world world' : σ} :
      Run system programs start history pool world ->
      system.drifts world world' ->
      Run system programs start history pool world'

end System

@[simp] theorem traceOf_nil [DecidableEq ι] (thread : ι) :
    traceOf thread ([] : List (Entry Call Answer)) = [] :=
  rfl

@[simp] theorem traceOf_append
    [DecidableEq ι]
    (thread : ι)
    (first second : List (Entry Call Answer)) :
    traceOf thread (first ++ second) = traceOf thread first ++ traceOf thread second := by
  simp [traceOf]

@[simp] theorem traceOf_own
    [DecidableEq ι]
    (thread : ι)
    (event : Event (Call thread) (Answer thread)) :
    traceOf thread [⟨thread, event⟩] = [event] := by
  simp [traceOf]

theorem traceOf_cons_own
    [DecidableEq ι]
    (thread : ι)
    (event : Event (Call thread) (Answer thread))
    (rest : List (Entry Call Answer)) :
    traceOf thread (⟨thread, event⟩ :: rest) = event :: traceOf thread rest := by
  simp [traceOf]

theorem traceOf_other
    [DecidableEq ι]
    {thread other : ι}
    (different : other ≠ thread)
    (event : Event (Call other) (Answer other)) :
    traceOf thread [⟨other, event⟩] = [] := by
  simp [traceOf, different]

/-- A thread has no part in the calls of others. -/
theorem traceOf_eq_nil
    [DecidableEq ι]
    {thread : ι}
    {history : List (Entry Call Answer)}
    (others : ∀ entry ∈ history, entry.thread ≠ thread) :
    traceOf thread history = [] := by
  refine List.filterMap_eq_nil_iff.mpr fun entry member => ?_
  simp [others entry member]

/-- The traces of all threads, prolonged by one call. -/
theorem traceOf_snoc
    [DecidableEq ι]
    (history : List (Entry Call Answer))
    (thread : ι)
    (event : Event (Call thread) (Answer thread)) :
    (fun other => traceOf other (history ++ [⟨thread, event⟩])) =
      Function.update (fun other => traceOf other history) thread
        (traceOf thread history ++ [event]) := by
  funext other
  rcases eq_or_ne other thread with rfl | different
  · simp
  · rw [Function.update_of_ne different, traceOf_append, traceOf_other (Ne.symm different),
      List.append_nil]

/-- A call in the trace of a thread is an entry of the history. -/
theorem mem_traceOf
    [DecidableEq ι]
    {thread : ι}
    {history : List (Entry Call Answer)}
    {event : Event (Call thread) (Answer thread)} :
    event ∈ traceOf thread history ↔ ⟨thread, event⟩ ∈ history := by
  simp only [traceOf, List.mem_filterMap]
  constructor
  · rintro ⟨⟨owner, made⟩, member, found⟩
    split at found
    · rename_i same
      subst same
      obtain rfl := Option.some.inj found
      exact member
    · exact absurd found (by simp)
  · intro member
    exact ⟨_, member, by simp⟩

namespace Program

/-- An execution can be prolonged by one more call. -/
theorem Steps.snoc
    {Call : Type} {Answer : Call -> Type} {ε α : Type}
    {program : Program Call Answer ε α}
    {trace : List (Event Call Answer)}
    {request : Call}
    {next : Answer request -> Program Call Answer ε α}
    (steps : Steps program trace (.call request next))
    (answer : Answer request) :
    Steps program (trace ++ [⟨request, answer⟩]) (next answer) :=
  steps_append.mpr ⟨_, steps, .call (.refl _)⟩

end Program

namespace System

variable [DecidableEq ι]
variable {system : System ι Call Answer σ} {programs : Pool Call Answer ε α} {start : σ}
variable {history : List (Entry Call Answer)} {pool : Pool Call Answer ε α} {world : σ}
variable {thread : ι}

/-- Every thread executes its own program. -/
theorem Run.steps
    (run : system.Run programs start history pool world)
    (thread : ι) :
    Program.Steps (programs thread) (traceOf thread history) (pool thread) := by
  induction run with
  | start => exact .refl _
  | @step history pool _ _ owner request next answer _ current _ inductionHypothesis =>
      by_cases same : owner = thread
      · subst same
        rw [traceOf_append, traceOf_own, Function.update_self]
        exact (current ▸ inductionHypothesis).snoc answer
      · rw [traceOf_append, traceOf_other same, List.append_nil,
          Function.update_of_ne (Ne.symm same)]
        exact inductionHypothesis
  | drift _ _ inductionHypothesis => exact inductionHypothesis

/-- Every entry of the history was served in a world that an earlier part of the
run had reached. -/
theorem Run.exists_before
    (run : system.Run programs start history pool world)
    {past future : List (Entry Call Answer)}
    {entry : Entry Call Answer}
    (split : history = past ++ entry :: future) :
    ∃ (earlier : Pool Call Answer ε α) (before after : σ),
      system.Run programs start past earlier before ∧
        system.serves entry.thread before entry.event.call entry.event.answer after := by
  induction run generalizing future with
  | start => exact absurd split (by simp)
  | @step history pool before after owner request next answer run _ served
      inductionHypothesis =>
      rcases List.eq_nil_or_concat future with rfl | ⟨front, final, rfl⟩
      · obtain ⟨rfl, singleton⟩ := List.append_inj' split rfl
        obtain rfl := (List.cons.inj singleton).1
        exact ⟨pool, before, after, run, served⟩
      · rw [List.concat_eq_append, ← List.cons_append, ← List.append_assoc] at split
        exact inductionHypothesis (List.append_inj' split rfl).1
  | drift _ _ inductionHypothesis => exact inductionHypothesis split

/-- A run can be continued by a run from where it stands. -/
theorem Run.trans
    {earlier : List (Entry Call Answer)}
    {middle : Pool Call Answer ε α}
    {between : σ}
    (first : system.Run programs start earlier middle between)
    (second : system.Run middle between history pool world) :
    system.Run programs start (earlier ++ history) pool world := by
  induction second with
  | start => simpa using first
  | step _ current served inductionHypothesis =>
      rw [← List.append_assoc]
      exact inductionHypothesis.step current served
  | drift _ drifted inductionHypothesis => exact inductionHypothesis.drift drifted

/-- A run passes through a state between any two parts of its history. -/
theorem Run.split
    {earlier later : List (Entry Call Answer)}
    (run : system.Run programs start (earlier ++ later) pool world) :
    ∃ (middle : Pool Call Answer ε α) (between : σ),
      system.Run programs start earlier middle between ∧
        system.Run middle between later pool world := by
  generalize whole : earlier ++ later = history at run
  induction run generalizing later with
  | start =>
      obtain ⟨rfl, rfl⟩ := List.append_eq_nil_iff.mp whole
      exact ⟨programs, start, .start, .start⟩
  | @step history pool before after owner request next answer run current served
      inductionHypothesis =>
      rcases List.eq_nil_or_concat later with rfl | ⟨front, final, rfl⟩
      · rw [List.append_nil] at whole
        exact ⟨_, _, whole ▸ run.step current served, .start⟩
      · rw [List.concat_eq_append, ← List.append_assoc] at whole
        obtain ⟨rfl, singleton⟩ := List.append_inj' whole rfl
        obtain ⟨middle, between, front, back⟩ := inductionHypothesis rfl
        obtain rfl := List.singleton_inj.mp singleton
        exact ⟨middle, between, front, by simpa using back.step current served⟩
  | drift _ drifted inductionHypothesis =>
      obtain ⟨middle, between, front, back⟩ := inductionHypothesis whole
      exact ⟨middle, between, front, back.drift drifted⟩

/-- A run passes through the states right before and right after each of its calls. -/
theorem Run.split_cons
    {earlier later : List (Entry Call Answer)}
    {entry : Entry Call Answer}
    (run : system.Run programs start (earlier ++ entry :: later) pool world) :
    ∃ (first second : Pool Call Answer ε α) (before after : σ),
      system.Run programs start earlier first before ∧
        system.serves entry.thread before entry.event.call entry.event.answer after ∧
        system.Run programs start (earlier ++ [entry]) second after ∧
        system.Run second after later pool world := by
  generalize whole : earlier ++ entry :: later = history at run
  induction run generalizing later with
  | start => exact absurd whole (by simp)
  | @step history pool before after owner request next answer run current served
      inductionHypothesis =>
      rcases List.eq_nil_or_concat later with rfl | ⟨front, final, rfl⟩
      · obtain ⟨rfl, singleton⟩ := List.append_inj' whole rfl
        obtain rfl := List.singleton_inj.mp singleton
        exact ⟨_, _, before, after, run, served, run.step current served, .start⟩
      · rw [List.concat_eq_append, ← List.cons_append, ← List.append_assoc] at whole
        obtain ⟨rfl, singleton⟩ := List.append_inj' whole rfl
        obtain ⟨first, second, world, world', front, own, back, rest⟩ := inductionHypothesis rfl
        obtain rfl := List.singleton_inj.mp singleton
        exact ⟨first, second, world, world', front, own, back,
          by simpa using rest.step current served⟩
  | drift _ drifted inductionHypothesis =>
      obtain ⟨first, second, world, world', front, own, back, rest⟩ := inductionHypothesis whole
      exact ⟨first, second, world, world', front, own, back, rest.drift drifted⟩

/-- The calls of a thread before and after one of its calls are its calls before and
after the entry of that call. -/
theorem exists_split_of_traceOf
    {before after : List (Event (Call thread) (Answer thread))}
    {event : Event (Call thread) (Answer thread)}
    (split : traceOf thread history = before ++ event :: after) :
    ∃ past future, history = past ++ ⟨thread, event⟩ :: future ∧
      traceOf thread past = before ∧ traceOf thread future = after := by
  unfold traceOf at split
  obtain ⟨past, rest, rfl, pastTrace, restTrace⟩ := List.filterMap_eq_append_iff.mp split
  obtain ⟨skipped, entry, future, rfl, others, own, futureTrace⟩ :=
    List.filterMap_eq_cons_iff.mp restTrace
  obtain ⟨owner, made⟩ := entry
  by_cases same : owner = thread
  · subst same
    obtain rfl : made = event := by simpa using own
    refine ⟨past ++ skipped, future, by simp, ?_, futureTrace⟩
    rw [traceOf_append]
    unfold traceOf
    rw [pastTrace, List.filterMap_eq_nil_iff.mpr others, List.append_nil]
  · exact absurd own (by simp [same])

/-- What the world guarantees about every answer to a thread holds of all of them. -/
theorem Run.relied
    {relies : List (Event (Call thread) (Answer thread)) ->
      Event (Call thread) (Answer thread) -> Prop}
    (run : system.Run programs start history pool world)
    (answered : ∀ past earlier before request answer after,
      system.Run programs start past earlier before ->
      system.serves thread before request answer after ->
        relies (traceOf thread past) ⟨request, answer⟩)
    {before after : List (Event (Call thread) (Answer thread))}
    {event : Event (Call thread) (Answer thread)}
    (split : traceOf thread history = before ++ event :: after) :
    relies before event := by
  obtain ⟨past, future, whole, rfl, _⟩ := exists_split_of_traceOf split
  obtain ⟨earlier, world', after', run', served⟩ := run.exists_before whole
  exact answered past earlier world' event.call event.answer after' run' served

/-- What remains of a thread meets its contract, if it can rely on the world. -/
theorem Run.meets
    (run : system.Run programs start history pool world)
    (thread : ι)
    {contract : Contract (Call thread) (Answer thread)}
    {post : List (Event (Call thread) (Answer thread)) -> Except (ε thread) (α thread) -> Prop}
    (meets : (programs thread).Meets contract [] post)
    (relied : ∀ before event after, traceOf thread history = before ++ event :: after ->
      contract.relies before event) :
    (pool thread).Meets contract (traceOf thread history) post := by
  simpa using (meets.steps (run.steps thread) (by simpa using relied)).2

/-- What a call of a thread establishes holds as long as the thread makes no call that may
undo it, provided that the other threads and the world itself keep it. -/
theorem Run.since
    (holds : σ -> Prop)
    (quiet : Call thread -> Prop)
    {before after : List (Event (Call thread) (Answer thread))}
    {event : Event (Call thread) (Answer thread)}
    (established : ∀ first second,
      system.serves thread first event.call event.answer second -> holds second)
    (keptByThread : ∀ first second request answer,
      system.serves thread first request answer second -> quiet request -> holds first ->
        holds second)
    (keptByOthers : ∀ other, other ≠ thread -> ∀ first second request answer,
      system.serves other first request answer second -> holds first -> holds second)
    (keptByWorld : ∀ first second, system.drifts first second -> holds first -> holds second)
    (run : system.Run programs start history pool world)
    (split : traceOf thread history = before ++ event :: after)
    (undisturbed : ∀ later ∈ after, quiet later.call) :
    holds world := by
  induction run generalizing after with
  | start => exact absurd split (by simp)
  | @step history pool first second owner request next answer run _ served
      inductionHypothesis =>
      by_cases same : owner = thread
      · subst same
        rw [traceOf_append, traceOf_own] at split
        rcases List.eq_nil_or_concat after with rfl | ⟨front, final, rfl⟩
        · obtain ⟨_, singleton⟩ := List.append_inj' split rfl
          obtain rfl := (List.cons.inj singleton).1
          exact established _ _ served
        · rw [List.concat_eq_append, ← List.cons_append, ← List.append_assoc] at split
          obtain ⟨earlier, singleton⟩ := List.append_inj' split rfl
          obtain rfl := (List.cons.inj singleton).1
          refine keptByThread _ _ _ _ served (undisturbed ⟨request, answer⟩ (by simp)) ?_
          exact inductionHypothesis earlier fun later member => undisturbed later (by simp [member])
      · rw [traceOf_append, traceOf_other same, List.append_nil] at split
        exact keptByOthers owner same _ _ _ _ served (inductionHypothesis split undisturbed)
  | drift _ drifted inductionHypothesis =>
      exact keptByWorld _ _ drifted (inductionHypothesis split undisturbed)

/-- A thread has made allowed calls only, if it can rely on the world. -/
theorem Run.allowed
    (run : system.Run programs start history pool world)
    (thread : ι)
    {contract : Contract (Call thread) (Answer thread)}
    {post : List (Event (Call thread) (Answer thread)) -> Except (ε thread) (α thread) -> Prop}
    (meets : (programs thread).Meets contract [] post)
    (relied : ∀ before event after, traceOf thread history = before ++ event :: after ->
      contract.relies before event)
    {before after : List (Event (Call thread) (Answer thread))}
    {event : Event (Call thread) (Answer thread)}
    (split : traceOf thread history = before ++ event :: after) :
    contract.allows before event.call := by
  simpa using (meets.steps (run.steps thread) (by simpa using relied)).1 before event after split

/-- The world answers the calls of one thread one after the other. -/
inductive ServesAll (system : System ι Call Answer σ) (thread : ι) :
    σ -> List (Event (Call thread) (Answer thread)) -> σ -> Prop
  | nil (world : σ) : ServesAll system thread world [] world
  | cons {world middle after : σ} {event : Event (Call thread) (Answer thread)}
      {rest : List (Event (Call thread) (Answer thread))} :
      system.serves thread world event.call event.answer middle ->
      ServesAll system thread middle rest after ->
      ServesAll system thread world (event :: rest) after

omit [DecidableEq ι] in
/-- A world that answers each of the calls without changing answers all of them. -/
theorem servesAll_of_unchanged
    {thread : ι}
    {trace : List (Event (Call thread) (Answer thread))}
    (served : ∀ event ∈ trace, system.serves thread world event.call event.answer world) :
    system.ServesAll thread world trace world := by
  induction trace with
  | nil => exact .nil world
  | cons event rest inductionHypothesis =>
      exact .cons (served event (by simp))
        (inductionHypothesis fun later member => served later (by simp [member]))

/-- A thread can run on its own as far as the world answers it. -/
theorem Run.alone
    (run : system.Run programs start history pool world)
    {thread : ι}
    {trace : List (Event (Call thread) (Answer thread))}
    {rest : Program (Call thread) (Answer thread) (ε thread) (α thread)}
    (steps : Program.Steps (pool thread) trace rest)
    {after : σ}
    (served : system.ServesAll thread world trace after) :
    system.Run programs start (history ++ trace.map (Entry.mk thread))
      (Function.update pool thread rest) after := by
  generalize current : pool thread = program at steps
  induction steps generalizing history pool world with
  | refl program =>
      cases served
      subst current
      simpa using run
  | @call request next answer trace rest _ inductionHypothesis =>
      cases served with
      | cons first others =>
          have stepped := run.step current first
          simpa using inductionHypothesis stepped others (by simp)

/-- Follow a program for some calls, with an environment that can be executed. -/
def follow {Call : Type} {Answer : Call -> Type} {ε α : Type}
    (respond : σ -> (request : Call) -> Answer request × σ) :
    Nat -> Program Call Answer ε α -> σ ->
      List (Event Call Answer) × Program Call Answer ε α × σ
  | fuel + 1, .call request next, world =>
      let answered := respond world request
      let rest := follow respond fuel (next answered.1) answered.2
      (⟨request, answered.1⟩ :: rest.1, rest.2)
  | _, program, world => ([], program, world)

omit [DecidableEq ι] in
/-- Following a program executes it. -/
theorem steps_follow
    {Call : Type}
    {Answer : Call -> Type}
    {ε α : Type}
    (respond : σ -> (request : Call) -> Answer request × σ)
    (fuel : Nat)
    (program : Program Call Answer ε α)
    (world : σ) :
    Program.Steps program (System.follow respond fuel program world).1
      (System.follow respond fuel program world).2.1 := by
  induction fuel generalizing program world with
  | zero => exact .refl _
  | succ fuel inductionHypothesis =>
      cases program with
      | done result => exact .refl _
      | exhausted => exact .refl _
      | call request next => exact .call (inductionHypothesis _ _)

/-- A run can be continued by following one of its threads, with an environment whose
states stand for worlds. -/
theorem Run.follow_through
    {τ : Type}
    {respond : τ -> (request : Call thread) -> Answer thread request × τ}
    (view : τ -> σ)
    (sound : τ -> Prop)
    (faithful : ∀ state request, sound state ->
      system.serves thread (view state) request (respond state request).1
          (view (respond state request).2) ∧
        sound (respond state request).2)
    {state : τ}
    (run : system.Run programs start history pool (view state))
    (fine : sound state)
    (fuel : Nat) :
    system.Run programs start
        (history ++ (System.follow respond fuel (pool thread) state).1.map (Entry.mk thread))
        (Function.update pool thread (System.follow respond fuel (pool thread) state).2.1)
        (view (System.follow respond fuel (pool thread) state).2.2) ∧
      sound (System.follow respond fuel (pool thread) state).2.2 := by
  generalize current : pool thread = program
  induction fuel generalizing history pool state program with
  | zero =>
      subst current
      exact ⟨by simpa [System.follow] using run, fine⟩
  | succ fuel inductionHypothesis =>
      cases program with
      | done result => exact ⟨by simpa [System.follow, ← current] using run, fine⟩
      | exhausted => exact ⟨by simpa [System.follow, ← current] using run, fine⟩
      | call request next =>
          obtain ⟨served, stillFine⟩ := faithful state request fine
          have continued := inductionHypothesis (run.step current served) stillFine _
            (Function.update_self ..)
          simpa [System.follow] using continued

/-- A run can be continued by following one of its threads. -/
theorem Run.follow
    {respond : σ -> (request : Call thread) -> Answer thread request × σ}
    (faithful : ∀ world request,
      system.serves thread world request (respond world request).1 (respond world request).2)
    (run : system.Run programs start history pool world)
    (fuel : Nat) :
    system.Run programs start
      (history ++ (System.follow respond fuel (pool thread) world).1.map (Entry.mk thread))
      (Function.update pool thread (System.follow respond fuel (pool thread) world).2.1)
      (System.follow respond fuel (pool thread) world).2.2 :=
  (run.follow_through id (fun _ => True) (fun state request _ => ⟨faithful state request, trivial⟩)
    trivial fuel).1

@[simp] theorem traceOf_map_own
    (thread : ι)
    (trace : List (Event (Call thread) (Answer thread))) :
    traceOf thread (trace.map (Entry.mk thread)) = trace := by
  induction trace with
  | nil => rfl
  | cons event rest inductionHypothesis =>
      rw [List.map_cons, ← List.singleton_append, traceOf_append, traceOf_own,
        inductionHypothesis]
      rfl

end System
end Effect
