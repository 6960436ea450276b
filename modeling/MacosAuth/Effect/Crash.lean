import MacosAuth.Effect.Contract

/-!
# Programs that may stop at any point

A program runs against a world that its calls change, and may stop between any two of
them. `Survives` is the judgement of a precondition, a postcondition and a crash
condition: the crash condition holds in the worlds before and after every call, and the
postcondition holds together with the outcome. The rules follow the constructors of
programs, and `Survives.executes` turns a judgement into a statement about every
execution, whether it has come to its end or not.
-/

namespace Effect
namespace Program

variable {Call : Type} {Answer : Call -> Type} {σ ε ε' α β : Type}

/-- `Executes serves program world trace rest after`: the program made the calls of the
trace, which led from the first world to the second, and `rest` is what remains of it. -/
inductive Executes
    (serves : σ -> (request : Call) -> Answer request -> σ -> Prop) :
    Program Call Answer ε α -> σ -> List (Event Call Answer) ->
      Program Call Answer ε α -> σ -> Prop
  | refl (program : Program Call Answer ε α) (world : σ) :
      Executes serves program world [] program world
  | call {request : Call} {next : Answer request -> Program Call Answer ε α}
      {answer : Answer request} {world middle after : σ}
      {trace : List (Event Call Answer)} {rest : Program Call Answer ε α} :
      serves world request answer middle ->
      Executes serves (next answer) middle trace rest after ->
      Executes serves (.call request next) world (⟨request, answer⟩ :: trace) rest after

variable {serves : σ -> (request : Call) -> Answer request -> σ -> Prop}

/-- A world that answers more lets a program do more. -/
theorem Executes.mono
    {weaker : σ -> (request : Call) -> Answer request -> σ -> Prop}
    {program rest : Program Call Answer ε α}
    {world after : σ}
    {trace : List (Event Call Answer)}
    (executes : Executes serves program world trace rest after)
    (implies : ∀ first request answer second, ⟨request, answer⟩ ∈ trace ->
      serves first request answer second -> weaker first request answer second) :
    Executes weaker program world trace rest after := by
  induction executes with
  | refl program world => exact .refl _ _
  | @call request next answer world middle after trace rest served _ inductionHypothesis =>
      refine .call (implies _ _ _ _ (by simp) served) (inductionHypothesis ?_)
      intro first request answer second member
      exact implies first request answer second (by simp [member])

/-- Only the answers of the trace matter to an execution. -/
theorem Executes.within
    {program rest : Program Call Answer ε α}
    {world after : σ}
    {trace : List (Event Call Answer)}
    (executes : Executes serves program world trace rest after) :
    Executes
      (fun first request answer second =>
        serves first request answer second ∧ ⟨request, answer⟩ ∈ trace)
      program world trace rest after :=
  executes.mono fun _ _ _ _ member served => ⟨served, member⟩

theorem Executes.steps
    {program rest : Program Call Answer ε α}
    {world after : σ}
    {trace : List (Event Call Answer)}
    (executes : Executes serves program world trace rest after) :
    Steps program trace rest := by
  induction executes with
  | refl program world => exact .refl _
  | call _ _ inductionHypothesis => exact .call inductionHypothesis

/-- Executions are composed like programs. -/
theorem Executes.bind
    {program : Program Call Answer ε α}
    {next : α -> Program Call Answer ε β}
    {rest : Program Call Answer ε β}
    {value : α}
    {world middle after : σ}
    {first second : List (Event Call Answer)}
    (executes : Executes serves program world first (.done (.ok value)) middle)
    (continues : Executes serves (next value) middle second rest after) :
    Executes serves (program >>= next) world (first ++ second) rest after := by
  generalize ended : (.done (.ok value) : Program Call Answer ε α) = remains at executes
  induction executes with
  | refl program world =>
      subst ended
      exact continues
  | call served _ inductionHypothesis => exact .call served (inductionHypothesis continues ended)

/-- An attempt makes the calls of the program. -/
theorem Executes.attempt
    {program : Program Call Answer ε α}
    {result : Except ε α}
    {world after : σ}
    {trace : List (Event Call Answer)}
    (executes : Executes serves program world trace (.done result) after) :
    Executes serves (program.attempt : Program Call Answer ε' (Except ε α)) world trace
      (.done (.ok result)) after := by
  generalize ended : (.done result : Program Call Answer ε α) = remains at executes
  induction executes with
  | refl program world =>
      subst ended
      exact .refl _ _
  | call served _ inductionHypothesis => exact .call served (inductionHypothesis ended)

/-- A clean-up that succeeds leaves the outcome of the body. -/
theorem Executes.ensuring
    {body : Program Call Answer ε α}
    {cleanup : Program Call Answer ε Unit}
    {result : Except ε α}
    {world middle after : σ}
    {first second : List (Event Call Answer)}
    (executes : Executes serves body world first (.done result) middle)
    (cleans : Executes serves cleanup middle second (.done (.ok ())) after) :
    Executes serves (body.ensuring cleanup) world (first ++ second) (.done result) after := by
  refine Executes.bind executes.attempt ?_
  rw [← List.append_nil second]
  exact Executes.bind cleans (.refl _ _)

/-- An execution begins with an answer to the first call. -/
theorem exists_executes_call
    {request : Call}
    {next : Answer request -> Program Call Answer ε α}
    {result : Except ε α}
    {world middle : σ}
    (answer : Answer request)
    (served : serves world request answer middle)
    (continues : ∃ trace after,
      Executes serves (next answer) middle trace (.done result) after) :
    ∃ trace after, Executes serves (.call request next) world trace (.done result) after := by
  obtain ⟨trace, after, executes⟩ := continues
  exact ⟨_, after, .call served executes⟩

/-- A program that always ends comes to an end in a world that always answers. -/
theorem exists_executes
    {calls : Call -> Prop}
    {errors : ε -> Prop}
    {program : Program Call Answer ε α}
    (answers : ∀ world request, ∃ answer after, serves world request answer after)
    (settles : program.Settles calls errors)
    (world : σ) :
    ∃ trace result after, Executes serves program world trace (.done result) after := by
  induction program generalizing world with
  | done result => exact ⟨[], result, world, .refl _ _⟩
  | call request next inductionHypothesis =>
      obtain ⟨answer, middle, served⟩ := answers world request
      obtain ⟨trace, result, after, executes⟩ :=
        inductionHypothesis answer (settles.2 answer) middle
      exact ⟨_, result, after, .call served executes⟩
  | exhausted => exact settles.elim

/-- From the given world, the crash condition holds before and after every call, and every
outcome satisfies the postcondition together with the world that is then reached. -/
def Survives
    (serves : σ -> (request : Call) -> Answer request -> σ -> Prop)
    (crash : σ -> Prop) :
    Program Call Answer ε α -> σ -> (Except ε α -> σ -> Prop) -> Prop
  | .done result, world, post => crash world ∧ post result world
  | .call request next, world, post =>
      crash world ∧ ∀ answer after, serves world request answer after ->
        (next answer).Survives serves crash after post
  | .exhausted, world, _ => crash world

variable {crash : σ -> Prop} {world : σ}

@[simp] theorem survives_done
    (result : Except ε α)
    (post : Except ε α -> σ -> Prop) :
    (Program.done result : Program Call Answer ε α).Survives serves crash world post ↔
      crash world ∧ post result world :=
  Iff.rfl

@[simp] theorem survives_pure
    (value : α)
    (post : Except ε α -> σ -> Prop) :
    (pure value : Program Call Answer ε α).Survives serves crash world post ↔
      crash world ∧ post (.ok value) world :=
  Iff.rfl

@[simp] theorem survives_fail
    (error : ε)
    (post : Except ε α -> σ -> Prop) :
    (fail error : Program Call Answer ε α).Survives serves crash world post ↔
      crash world ∧ post (.error error) world :=
  Iff.rfl

@[simp] theorem survives_exhausted
    (post : Except ε α -> σ -> Prop) :
    (exhausted : Program Call Answer ε α).Survives serves crash world post ↔ crash world :=
  Iff.rfl

/-- The crash condition holds at the outset. -/
theorem Survives.holds
    {program : Program Call Answer ε α}
    {post : Except ε α -> σ -> Prop}
    (survives : program.Survives serves crash world post) :
    crash world := by
  cases program with
  | done result => exact survives.1
  | call request next => exact survives.1
  | exhausted => exact survives

/-- Weaken the postcondition. -/
theorem Survives.mono
    {program : Program Call Answer ε α}
    {strong weak : Except ε α -> σ -> Prop}
    (survives : program.Survives serves crash world strong)
    (implies : ∀ result after, crash after -> strong result after -> weak result after) :
    program.Survives serves crash world weak := by
  induction program generalizing world with
  | done result => exact ⟨survives.1, implies _ _ survives.1 survives.2⟩
  | call request next inductionHypothesis =>
      exact ⟨survives.1, fun answer after served =>
        inductionHypothesis answer (survives.2 answer after served)⟩
  | exhausted => exact survives

/-- A call leads to every world in which it may be answered. -/
theorem survives_perform_bind
    (request : Call)
    (next : Answer request -> Program Call Answer ε α)
    (post : Except ε α -> σ -> Prop) :
    (perform request >>= next).Survives serves crash world post ↔
      crash world ∧ ∀ answer after, serves world request answer after ->
        (next answer).Survives serves crash after post :=
  Iff.rfl

/-- Composition, with an intermediate condition. -/
theorem Survives.bind
    {program : Program Call Answer ε α}
    {next : α -> Program Call Answer ε β}
    {middle : Except ε α -> σ -> Prop}
    {post : Except ε β -> σ -> Prop}
    (survives : program.Survives serves crash world middle)
    (continues : ∀ value after, crash after -> middle (.ok value) after ->
      (next value).Survives serves crash after post)
    (fails : ∀ error after, middle (.error error) after -> post (.error error) after) :
    (program >>= next).Survives serves crash world post := by
  change (program.bind next).Survives serves crash world post
  induction program generalizing world with
  | done result =>
      cases result with
      | ok value => exact continues value world survives.1 survives.2
      | error error => exact ⟨survives.1, fails error world survives.2⟩
  | call request rest inductionHypothesis =>
      exact ⟨survives.1, fun answer after served =>
        inductionHypothesis answer (survives.2 answer after served)⟩
  | exhausted => exact survives

/-- Composition after an attempt, which has no error of its own. -/
theorem Survives.attempt_bind
    {program : Program Call Answer ε α}
    {next : Except ε α -> Program Call Answer ε' β}
    {middle : Except ε α -> σ -> Prop}
    {post : Except ε' β -> σ -> Prop}
    (survives : program.Survives serves crash world middle)
    (continues : ∀ result after, crash after -> middle result after ->
      (next result).Survives serves crash after post) :
    (program.attempt >>= next).Survives serves crash world post := by
  change (program.attempt.bind next).Survives serves crash world post
  induction program generalizing world with
  | done result => exact continues result world survives.1 survives.2
  | call request rest inductionHypothesis =>
      exact ⟨survives.1, fun answer after served =>
        inductionHypothesis answer (survives.2 answer after served)⟩
  | exhausted => exact survives

/-- Errors may be translated. -/
theorem Survives.mapError
    {program : Program Call Answer ε α}
    {translate : ε -> ε'}
    {post : Except ε' α -> σ -> Prop}
    (survives : program.Survives serves crash world fun result after =>
      post (result.mapError translate) after) :
    (program.mapError translate).Survives serves crash world post := by
  induction program generalizing world with
  | done result => cases result <;> exact survives
  | call request rest inductionHypothesis =>
      exact ⟨survives.1, fun answer after served =>
        inductionHypothesis answer (survives.2 answer after served)⟩
  | exhausted => exact survives

/-- Weaken the crash condition. -/
theorem Survives.mono_crash
    {weaker : σ -> Prop}
    {program : Program Call Answer ε α}
    {post : Except ε α -> σ -> Prop}
    (survives : program.Survives serves crash world post)
    (implies : ∀ after, crash after -> weaker after) :
    program.Survives serves weaker world post := by
  induction program generalizing world with
  | done result => exact ⟨implies _ survives.1, survives.2⟩
  | call request rest inductionHypothesis =>
      exact ⟨implies _ survives.1, fun answer after served =>
        inductionHypothesis answer (survives.2 answer after served)⟩
  | exhausted => exact implies _ survives

/-- What the permitted calls preserve survives a program that makes no others. -/
theorem Within.survives
    {permitted : Call -> Prop}
    {program : Program Call Answer ε α}
    (within : program.Within permitted)
    (preserves : ∀ first request answer second, permitted request -> crash first ->
      serves first request answer second -> crash second)
    (holds : crash world) :
    program.Survives serves crash world fun _ _ => True := by
  induction program generalizing world with
  | done result => exact ⟨holds, trivial⟩
  | call request rest inductionHypothesis =>
      exact ⟨holds, fun answer after served => inductionHypothesis answer (within.2 answer)
        (preserves _ _ _ _ within.1 holds served)⟩
  | exhausted => exact holds

/-- A clean-up follows the body, whose outcome remains. -/
theorem Survives.ensuring
    {body : Program Call Answer ε α}
    {cleanup : Program Call Answer ε Unit}
    {middle post : Except ε α -> σ -> Prop}
    (survives : body.Survives serves crash world middle)
    (cleans : ∀ result after, crash after -> middle result after ->
      cleanup.Survives serves crash after fun outcome final =>
        match outcome with
        | .ok _ => post result final
        | .error error => post (.error error) final) :
    (body.ensuring cleanup).Survives serves crash world post := by
  change (body.attempt >>= fun result => cleanup >>= fun _ => .done result).Survives _ _ _ _
  refine Survives.attempt_bind survives fun result after intact holds => ?_
  refine Survives.bind (cleans result after intact holds) (fun value final stillIntact kept => ?_)
    (fun error final kept => kept)
  exact ⟨stillIntact, kept⟩

/-- What a judgement says about every execution, whether it has ended or not. -/
theorem Survives.executes
    {program rest : Program Call Answer ε α}
    {trace : List (Event Call Answer)}
    {after : σ}
    {post : Except ε α -> σ -> Prop}
    (survives : program.Survives serves crash world post)
    (executes : Executes serves program world trace rest after) :
    crash after ∧ ∀ result, rest = .done result -> post result after := by
  induction executes with
  | refl program world =>
      refine ⟨survives.holds, ?_⟩
      rintro result rfl
      exact survives.2
  | call served _ inductionHypothesis => exact inductionHypothesis (survives.2 _ _ served)

end Program
end Effect
