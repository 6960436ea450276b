import MacosAuth.Effect.Crash

/-!
# Programs that come to an end

`Achieves` is the judgement of total correctness for a program that runs against a world:
every call has an answer, no loop uses up its rounds, and every outcome satisfies the
postcondition together with the world that is then reached. `Achieves.executes` and
`Achieves.exists_executes` turn a judgement into statements about executions.
-/

namespace Effect
namespace Program

variable {Call : Type} {Answer : Call -> Type} {σ ε ε' α β : Type}

/-- From the given world, each call is answered, and however the calls are answered, the
program ends as the postcondition says. -/
def Achieves
    (serves : σ -> (request : Call) -> Answer request -> σ -> Prop) :
    Program Call Answer ε α -> σ -> (Except ε α -> σ -> Prop) -> Prop
  | .done result, world, post => post result world
  | .call request next, world, post =>
      (∃ answer after, serves world request answer after) ∧
        ∀ answer after, serves world request answer after ->
          (next answer).Achieves serves after post
  | .exhausted, _, _ => False

variable {serves : σ -> (request : Call) -> Answer request -> σ -> Prop} {world : σ}

/-- Weaken the postcondition. -/
theorem Achieves.mono
    {program : Program Call Answer ε α}
    {strong weak : Except ε α -> σ -> Prop}
    (achieves : program.Achieves serves world strong)
    (implies : ∀ result after, strong result after -> weak result after) :
    program.Achieves serves world weak := by
  induction program generalizing world with
  | done result => exact implies _ _ achieves
  | call request next inductionHypothesis =>
      exact ⟨achieves.1, fun answer after served =>
        inductionHypothesis answer (achieves.2 answer after served)⟩
  | exhausted => exact achieves.elim

/-- Composition, with an intermediate condition. -/
theorem Achieves.bind
    {program : Program Call Answer ε α}
    {next : α -> Program Call Answer ε β}
    {middle : Except ε α -> σ -> Prop}
    {post : Except ε β -> σ -> Prop}
    (achieves : program.Achieves serves world middle)
    (continues : ∀ value after, middle (.ok value) after ->
      (next value).Achieves serves after post)
    (fails : ∀ error after, middle (.error error) after -> post (.error error) after) :
    (program >>= next).Achieves serves world post := by
  change (program.bind next).Achieves serves world post
  induction program generalizing world with
  | done result =>
      cases result with
      | ok value => exact continues value world achieves
      | error error => exact fails error world achieves
  | call request rest inductionHypothesis =>
      exact ⟨achieves.1, fun answer after served =>
        inductionHypothesis answer (achieves.2 answer after served)⟩
  | exhausted => exact achieves.elim

/-- Composition after an attempt, which has no error of its own. -/
theorem Achieves.attempt_bind
    {program : Program Call Answer ε α}
    {next : Except ε α -> Program Call Answer ε' β}
    {middle : Except ε α -> σ -> Prop}
    {post : Except ε' β -> σ -> Prop}
    (achieves : program.Achieves serves world middle)
    (continues : ∀ result after, middle result after ->
      (next result).Achieves serves after post) :
    (program.attempt >>= next).Achieves serves world post := by
  change (program.attempt.bind next).Achieves serves world post
  induction program generalizing world with
  | done result => exact continues result world achieves
  | call request rest inductionHypothesis =>
      exact ⟨achieves.1, fun answer after served =>
        inductionHypothesis answer (achieves.2 answer after served)⟩
  | exhausted => exact achieves.elim

/-- No execution gets stuck in a loop, and those that have ended satisfy the
postcondition. -/
theorem Achieves.executes
    {program rest : Program Call Answer ε α}
    {trace : List (Event Call Answer)}
    {after : σ}
    {post : Except ε α -> σ -> Prop}
    (achieves : program.Achieves serves world post)
    (executes : Executes serves program world trace rest after) :
    rest ≠ .exhausted ∧ ∀ result, rest = .done result -> post result after := by
  induction executes with
  | refl program world =>
      constructor
      · rintro rfl
        exact achieves
      · rintro result rfl
        exact achieves
  | call served _ inductionHypothesis => exact inductionHypothesis (achieves.2 _ _ served)

/-- There is an execution that has ended. -/
theorem Achieves.exists_executes
    {program : Program Call Answer ε α}
    {post : Except ε α -> σ -> Prop}
    (achieves : program.Achieves serves world post) :
    ∃ trace result after, Executes serves program world trace (.done result) after := by
  induction program generalizing world with
  | done result => exact ⟨[], result, world, .refl _ _⟩
  | call request next inductionHypothesis =>
      obtain ⟨answer, middle, served⟩ := achieves.1
      obtain ⟨trace, result, after, executes⟩ :=
        inductionHypothesis answer (achieves.2 answer middle served)
      exact ⟨_, result, after, .call served executes⟩
  | exhausted => exact achieves.elim

end Program
end Effect
