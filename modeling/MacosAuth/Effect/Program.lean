import Mathlib.Data.List.Basic

/-!
# Programs with external calls

A program is a tree of calls to an environment: each node names the call and
gives one continuation for every answer the environment may return. Programs
end with a value or an error, which models early returns and thrown errors.
Unbounded loops are written with a bound on the number of rounds; the third
constructor is the state of a loop that has used up its bound.

The meaning of a program is the set of its executions: lists of answered calls
together with the program that remains.
-/

namespace Effect

/-- Programs over a type of calls, each call with its own type of answers. -/
inductive Program (Call : Type) (Answer : Call -> Type) (ε α : Type)
  | done (result : Except ε α)
  | call (request : Call) (next : Answer request -> Program Call Answer ε α)
  | exhausted

/-- One call together with the answer that it received. -/
structure Event (Call : Type) (Answer : Call -> Type) where
  /-- The call that was made. -/
  call : Call
  /-- What the environment answered. -/
  answer : Answer call

namespace Program

variable {Call : Type} {Answer : Call -> Type}

/-- Sequential composition. An error or an exhausted loop ends the whole. -/
def bind : Program Call Answer ε α -> (α -> Program Call Answer ε β) ->
    Program Call Answer ε β
  | .done (.ok value), next => next value
  | .done (.error error), _ => .done (.error error)
  | .call request rest, next => .call request fun answer => (rest answer).bind next
  | .exhausted, _ => .exhausted

instance : Monad (Program Call Answer ε) where
  pure value := .done (.ok value)
  bind := bind

/-- A value is handed on. -/
theorem ok_bind (value : α) (next : α -> Program Call Answer ε β) :
    ((.done (.ok value) : Program Call Answer ε α) >>= next) = next value :=
  rfl

/-- Make one call and return its answer. -/
def perform (request : Call) : Program Call Answer ε (Answer request) :=
  .call request fun answer => .done (.ok answer)

/-- End with an error. -/
def fail (error : ε) : Program Call Answer ε α :=
  .done (.error error)

/-- Turn the outcome of a program into an ordinary value. -/
def attempt : Program Call Answer ε α -> Program Call Answer ε' (Except ε α)
  | .done result => .done (.ok result)
  | .call request rest => .call request fun answer => (rest answer).attempt
  | .exhausted => .exhausted

/-- Translate the error of a program. -/
def mapError (translate : ε -> ε') :
    Program Call Answer ε α -> Program Call Answer ε' α
  | .done (.ok value) => .done (.ok value)
  | .done (.error error) => .done (.error (translate error))
  | .call request rest => .call request fun answer => (rest answer).mapError translate
  | .exhausted => .exhausted

/-- Run `cleanup` after `body` on the normal and on the error path. -/
def ensuring
    (body : Program Call Answer ε α)
    (cleanup : Program Call Answer ε Unit) : Program Call Answer ε α :=
  body.attempt.bind fun result => cleanup.bind fun _ => .done result

/-! ## Executions -/

/-- `Steps program trace rest`: the program makes the calls of `trace`, receives
its answers, and `rest` is what remains to be run. -/
inductive Steps :
    Program Call Answer ε α -> List (Event Call Answer) ->
      Program Call Answer ε α -> Prop
  | refl (program : Program Call Answer ε α) : Steps program [] program
  | call {request : Call}
      {next : Answer request -> Program Call Answer ε α}
      {answer : Answer request}
      {trace : List (Event Call Answer)}
      {rest : Program Call Answer ε α} :
      Steps (next answer) trace rest ->
      Steps (.call request next) (⟨request, answer⟩ :: trace) rest

/-- An execution of a concatenated trace passes through a program in between. -/
theorem steps_append
    {program rest : Program Call Answer ε α}
    {first second : List (Event Call Answer)} :
    Steps program (first ++ second) rest ↔
      ∃ middle, Steps program first middle ∧ Steps middle second rest := by
  constructor
  · intro steps
    induction first generalizing program with
    | nil => exact ⟨program, .refl _, steps⟩
    | cons event first inductionHypothesis =>
        cases steps with
        | call later =>
            obtain ⟨middle, front, back⟩ := inductionHypothesis later
            exact ⟨middle, .call front, back⟩
  · rintro ⟨middle, front, back⟩
    induction front with
    | refl program => exact back
    | call _ inductionHypothesis => exact .call (inductionHypothesis back)

/-- The program ends after `trace` with the given outcome. -/
def Ends
    (program : Program Call Answer ε α)
    (trace : List (Event Call Answer))
    (result : Except ε α) : Prop :=
  Steps program trace (.done result)

@[simp] theorem ends_done
    (result outcome : Except ε α)
    (trace : List (Event Call Answer)) :
    Ends (.done result) trace outcome ↔ trace = [] ∧ outcome = result := by
  constructor
  · intro ends
    cases ends
    exact ⟨rfl, rfl⟩
  · rintro ⟨rfl, rfl⟩
    exact .refl _

@[simp] theorem ends_call
    (request : Call)
    (next : Answer request -> Program Call Answer ε α)
    (trace : List (Event Call Answer))
    (outcome : Except ε α) :
    Ends (.call request next) trace outcome ↔
      ∃ answer rest, trace = ⟨request, answer⟩ :: rest ∧
        Ends (next answer) rest outcome := by
  constructor
  · intro ends
    cases ends with
    | call rest => exact ⟨_, _, rfl, rest⟩
  · rintro ⟨answer, rest, rfl, ends⟩
    exact .call ends

@[simp] theorem not_ends_exhausted
    (trace : List (Event Call Answer))
    (outcome : Except ε α) :
    ¬Ends (.exhausted : Program Call Answer ε α) trace outcome := by
  intro ends
  cases ends

@[simp] theorem ends_pure
    (value : α)
    (trace : List (Event Call Answer))
    (outcome : Except ε α) :
    Ends (pure value) trace outcome ↔ trace = [] ∧ outcome = .ok value :=
  ends_done _ _ _

@[simp] theorem ends_fail
    (error : ε)
    (trace : List (Event Call Answer))
    (outcome : Except ε α) :
    Ends (fail error) trace outcome ↔ trace = [] ∧ outcome = .error error :=
  ends_done _ _ _

@[simp] theorem ends_perform
    (request : Call)
    (trace : List (Event Call Answer))
    (outcome : Except ε (Answer request)) :
    Ends (perform request) trace outcome ↔
      ∃ answer, trace = [⟨request, answer⟩] ∧ outcome = .ok answer := by
  simp [perform]

/-- A composition ends with the second program after the first returned a value,
or with the error of the first. -/
theorem ends_bind
    (program : Program Call Answer ε α)
    (next : α -> Program Call Answer ε β)
    (trace : List (Event Call Answer))
    (outcome : Except ε β) :
    Ends (program >>= next) trace outcome ↔
      (∃ first second value, trace = first ++ second ∧
        Ends program first (.ok value) ∧ Ends (next value) second outcome) ∨
      (∃ error, Ends program trace (.error error) ∧ outcome = .error error) := by
  change Ends (program.bind next) trace outcome ↔ _
  induction program generalizing trace with
  | done result =>
      cases result with
      | ok value => simp [bind]
      | error error => simp [bind]
  | call request rest inductionHypothesis =>
      simp only [bind, ends_call]
      constructor
      · rintro ⟨answer, tail, rfl, ends⟩
        rcases (inductionHypothesis answer tail).mp ends with
          ⟨first, second, value, rfl, ended, continued⟩ | ⟨error, ended, failed⟩
        · exact .inl ⟨_ :: first, second, value, rfl, ⟨answer, first, rfl, ended⟩, continued⟩
        · exact .inr ⟨error, ⟨answer, tail, rfl, ended⟩, failed⟩
      · rintro (⟨first, second, value, rfl, ⟨answer, tail, rfl, ended⟩, continued⟩ |
          ⟨error, ⟨answer, tail, rfl, ended⟩, failed⟩)
        · exact ⟨answer, tail ++ second, rfl,
            (inductionHypothesis answer _).mpr
              (.inl ⟨tail, second, value, rfl, ended, continued⟩)⟩
        · exact ⟨answer, tail, rfl,
            (inductionHypothesis answer tail).mpr (.inr ⟨error, ended, failed⟩)⟩
  | exhausted => simp [bind]

/-- A composition returns a value exactly when both parts do. -/
theorem ends_bind_ok
    (program : Program Call Answer ε α)
    (next : α -> Program Call Answer ε β)
    (trace : List (Event Call Answer))
    (value : β) :
    Ends (program >>= next) trace (.ok value) ↔
      ∃ first second intermediate, trace = first ++ second ∧
        Ends program first (.ok intermediate) ∧
        Ends (next intermediate) second (.ok value) := by
  simp [ends_bind]

@[simp] theorem ends_attempt
    (program : Program Call Answer ε α)
    (trace : List (Event Call Answer))
    (outcome : Except ε' (Except ε α)) :
    Ends (program.attempt : Program Call Answer ε' (Except ε α)) trace outcome ↔
      ∃ result, Ends program trace result ∧ outcome = .ok result := by
  induction program generalizing trace with
  | done result => simp [attempt]
  | call request rest inductionHypothesis =>
      simp only [attempt, ends_call, inductionHypothesis]
      constructor
      · rintro ⟨answer, tail, rfl, result, ended, rfl⟩
        exact ⟨result, ⟨answer, tail, rfl, ended⟩, rfl⟩
      · rintro ⟨result, ⟨answer, tail, rfl, ended⟩, rfl⟩
        exact ⟨answer, tail, rfl, result, ended, rfl⟩
  | exhausted => simp [attempt]

@[simp] theorem ends_mapError
    (translate : ε -> ε')
    (program : Program Call Answer ε α)
    (trace : List (Event Call Answer))
    (outcome : Except ε' α) :
    Ends (program.mapError translate) trace outcome ↔
      ∃ result, Ends program trace result ∧
        outcome = result.mapError translate := by
  induction program generalizing trace with
  | done result => cases result <;> simp [mapError, Except.mapError]
  | call request rest inductionHypothesis =>
      simp only [mapError, ends_call, inductionHypothesis]
      constructor
      · rintro ⟨answer, tail, rfl, result, ended, rfl⟩
        exact ⟨result, ⟨answer, tail, rfl, ended⟩, rfl⟩
      · rintro ⟨result, ⟨answer, tail, rfl, ended⟩, rfl⟩
        exact ⟨answer, tail, rfl, result, ended, rfl⟩
  | exhausted => simp [mapError]

theorem ends_mapError_ok
    {translate : ε -> ε'}
    {program : Program Call Answer ε α}
    {trace : List (Event Call Answer)}
    {value : α} :
    Ends (program.mapError translate) trace (.ok value) ↔ Ends program trace (.ok value) := by
  rw [ends_mapError]
  constructor
  · rintro ⟨result, ended, equal⟩
    cases result with
    | ok _ =>
        obtain rfl := Except.ok.inj equal
        exact ended
    | error _ => exact absurd equal (by simp [Except.mapError])
  · exact fun ended => ⟨_, ended, rfl⟩

theorem ends_mapError_error
    {translate : ε -> ε'}
    {program : Program Call Answer ε α}
    {trace : List (Event Call Answer)}
    {error : ε'} :
    Ends (program.mapError translate) trace (.error error) ↔
      ∃ cause, Ends program trace (.error cause) ∧ error = translate cause := by
  rw [ends_mapError]
  constructor
  · rintro ⟨result, ended, equal⟩
    cases result with
    | ok _ => exact absurd equal (by simp [Except.mapError])
    | error cause => exact ⟨cause, ended, Except.error.inj equal⟩
  · rintro ⟨cause, ended, rfl⟩
    exact ⟨_, ended, rfl⟩

/-- An attempt is always followed by the rest. -/
theorem ends_attempt_bind
    (program : Program Call Answer ε α)
    (next : Except ε α -> Program Call Answer ε' β)
    (trace : List (Event Call Answer))
    (outcome : Except ε' β) :
    Ends (program.attempt >>= next) trace outcome ↔
      ∃ first second result, trace = first ++ second ∧ Ends program first result ∧
        Ends (next result) second outcome := by
  rw [ends_bind]
  constructor
  · rintro (⟨first, second, result, split, attempted, continued⟩ | ⟨error, attempted, _⟩)
    · obtain ⟨_, ended, equal⟩ := (ends_attempt _ _ _).mp attempted
      obtain rfl := Except.ok.inj equal
      exact ⟨first, second, result, split, ended, continued⟩
    · obtain ⟨_, _, equal⟩ := (ends_attempt _ _ _).mp attempted
      exact absurd equal (by simp)
  · rintro ⟨first, second, result, split, ended, continued⟩
    exact .inl ⟨first, second, result, split, (ends_attempt _ _ _).mpr ⟨result, ended, rfl⟩,
      continued⟩

/-- A single call is followed by the rest. -/
theorem ends_perform_bind
    (request : Call)
    (next : Answer request -> Program Call Answer ε α)
    (trace : List (Event Call Answer))
    (outcome : Except ε α) :
    Ends (perform request >>= next) trace outcome ↔
      ∃ answer rest, trace = ⟨request, answer⟩ :: rest ∧ Ends (next answer) rest outcome :=
  ends_call _ _ _ _

/-- The cleanup follows the body, whose outcome remains. -/
theorem ends_ensuring_ok
    (body : Program Call Answer ε α)
    (cleanup : Program Call Answer ε Unit)
    (trace : List (Event Call Answer))
    (value : α) :
    Ends (body.ensuring cleanup) trace (.ok value) ↔
      ∃ first second, trace = first ++ second ∧ Ends body first (.ok value) ∧
        Ends cleanup second (.ok ()) := by
  change Ends (body.attempt >>= fun result => cleanup >>= fun _ => .done result) trace _ ↔ _
  rw [ends_attempt_bind]
  constructor
  · rintro ⟨first, second, result, split, ended, continued⟩
    rw [ends_bind_ok] at continued
    obtain ⟨cleaning, rest, _, rfl, cleaned, finished⟩ := continued
    obtain ⟨rfl, rfl⟩ := (ends_done _ _ _).mp finished
    exact ⟨first, cleaning, by simpa using split, ended, cleaned⟩
  · rintro ⟨first, second, split, ended, cleaned⟩
    refine ⟨first, second, .ok value, split, ended, (ends_bind_ok _ _ _ _).mpr ?_⟩
    exact ⟨second, [], (), by simp, cleaned, (ends_done _ _ _).mpr ⟨rfl, rfl⟩⟩

/-- The calls and answers determine the outcome. -/
theorem Ends.unique
    {program : Program Call Answer ε α}
    {trace : List (Event Call Answer)}
    {left right : Except ε α}
    (leftEnds : Ends program trace left)
    (rightEnds : Ends program trace right) :
    left = right := by
  induction program generalizing trace with
  | done result =>
      rw [ends_done] at leftEnds rightEnds
      rw [leftEnds.2, rightEnds.2]
  | call request next inductionHypothesis =>
      rw [ends_call] at leftEnds rightEnds
      obtain ⟨answer, tail, rfl, leftEnds⟩ := leftEnds
      obtain ⟨otherAnswer, otherTail, equal, rightEnds⟩ := rightEnds
      cases equal
      exact inductionHypothesis answer leftEnds rightEnds
  | exhausted => exact absurd leftEnds (not_ends_exhausted _ _)

/-- A program that has ended makes no further calls. -/
theorem Ends.complete
    {program : Program Call Answer ε α}
    {trace further : List (Event Call Answer)}
    {left right : Except ε α}
    (leftEnds : Ends program trace left)
    (rightEnds : Ends program (trace ++ further) right) :
    further = [] := by
  induction program generalizing trace with
  | done result =>
      rw [ends_done] at leftEnds rightEnds
      exact (List.append_eq_nil_iff.mp rightEnds.1).2
  | call request next inductionHypothesis =>
      rw [ends_call] at leftEnds rightEnds
      obtain ⟨answer, tail, rfl, leftEnds⟩ := leftEnds
      obtain ⟨otherAnswer, otherTail, equal, rightEnds⟩ := rightEnds
      cases equal
      exact inductionHypothesis answer leftEnds rightEnds
  | exhausted => exact absurd leftEnds (not_ends_exhausted _ _)

/-- After the first part has returned a value, the second part runs. -/
theorem Ends.steps_bind
    {program : Program Call Answer ε α}
    {next : α -> Program Call Answer ε β}
    {first second : List (Event Call Answer)}
    {value : α}
    {rest : Program Call Answer ε β}
    (ended : Ends program first (.ok value))
    (steps : Steps (program >>= next) (first ++ second) rest) :
    Steps (next value) second rest := by
  change Steps (program.bind next) (first ++ second) rest at steps
  induction program generalizing first with
  | done result =>
      obtain ⟨rfl, same⟩ := (ends_done _ _ _).mp ended
      subst same
      exact steps
  | call request rest inductionHypothesis =>
      obtain ⟨answer, tail, rfl, endedLater⟩ := (ends_call _ _ _ _).mp ended
      cases steps with
      | call later => exact inductionHypothesis answer endedLater later
  | exhausted => exact absurd ended (not_ends_exhausted _ _)

/-- The same for a composition whose errors are handled afterwards. -/
theorem Ends.steps_attempt_bind
    {program : Program Call Answer ε α}
    {next : α -> Program Call Answer ε β}
    {handle : Except ε β -> Program Call Answer ε' γ}
    {first second : List (Event Call Answer)}
    {value : α}
    {rest : Program Call Answer ε' γ}
    (ended : Ends program first (.ok value))
    (steps : Steps ((program >>= next).attempt >>= handle) (first ++ second) rest) :
    Steps ((next value).attempt >>= handle) second rest := by
  change Steps ((program.bind next).attempt.bind handle) (first ++ second) rest at steps
  induction program generalizing first with
  | done result =>
      obtain ⟨rfl, same⟩ := (ends_done _ _ _).mp ended
      subst same
      exact steps
  | call request rest inductionHypothesis =>
      obtain ⟨answer, tail, rfl, endedLater⟩ := (ends_call _ _ _ _).mp ended
      cases steps with
      | call later => exact inductionHypothesis answer endedLater later
  | exhausted => exact absurd ended (not_ends_exhausted _ _)

/-- A composition gives up in its first part or, after a value, in its second. -/
theorem steps_bind_exhausted
    {program : Program Call Answer ε α}
    {next : α -> Program Call Answer ε β}
    {trace : List (Event Call Answer)}
    (steps : Steps (program >>= next) trace .exhausted) :
    Steps program trace .exhausted ∨
      ∃ first second value, trace = first ++ second ∧
        Ends program first (.ok value) ∧ Steps (next value) second .exhausted := by
  change Steps (program.bind next) trace .exhausted at steps
  induction program generalizing trace with
  | done result =>
      cases result with
      | ok value => exact .inr ⟨[], trace, value, rfl, .refl _, steps⟩
      | error error => cases steps
  | call request rest inductionHypothesis =>
      cases steps with
      | call later =>
          rcases inductionHypothesis _ later with
            early | ⟨first, second, value, rfl, ended, continued⟩
          · exact .inl (.call early)
          · exact .inr ⟨_ :: first, second, value, rfl, .call ended, continued⟩
  | exhausted =>
      cases steps
      exact .inl (.refl _)

/-! ## Programs that always end -/

/-- Every execution runs to an end and makes permitted calls only, and its error, if any,
is a permitted one. -/
def Settles (calls : Call -> Prop) (errors : ε -> Prop) : Program Call Answer ε α -> Prop
  | .done (.ok _) => True
  | .done (.error error) => errors error
  | .call request next => calls request ∧ ∀ answer, (next answer).Settles calls errors
  | .exhausted => False

variable {calls : Call -> Prop} {errors : ε -> Prop}

theorem settles_pure (value : α) :
    (pure value : Program Call Answer ε α).Settles calls errors :=
  trivial

theorem settles_perform
    {request : Call}
    (fine : calls request) :
    (perform request : Program Call Answer ε _).Settles calls errors :=
  ⟨fine, fun _ => trivial⟩

theorem settles_fail
    {error : ε}
    (fine : errors error) :
    (fail error : Program Call Answer ε α).Settles calls errors :=
  fine

theorem settles_done
    {result : Except ε α}
    (fine : ∀ error, result = .error error -> errors error) :
    (.done result : Program Call Answer ε α).Settles calls errors := by
  cases result with
  | ok value => trivial
  | error error => exact fine error rfl

theorem Settles.bind
    {program : Program Call Answer ε α}
    {next : α -> Program Call Answer ε β}
    (settles : program.Settles calls errors)
    (continues : ∀ value, (next value).Settles calls errors) :
    (program >>= next).Settles calls errors := by
  change (program.bind next).Settles calls errors
  induction program with
  | done result =>
      cases result with
      | ok value => exact continues value
      | error error => exact settles
  | call request rest inductionHypothesis =>
      exact ⟨settles.1, fun answer => inductionHypothesis answer (settles.2 answer)⟩
  | exhausted => exact settles.elim

theorem Settles.mapError
    {translate : ε -> ε'}
    {errors : ε' -> Prop}
    {program : Program Call Answer ε α}
    (settles : program.Settles calls fun error => errors (translate error)) :
    (program.mapError translate).Settles calls errors := by
  induction program with
  | done result => cases result <;> exact settles
  | call request rest inductionHypothesis =>
      exact ⟨settles.1, fun answer => inductionHypothesis answer (settles.2 answer)⟩
  | exhausted => exact settles.elim

theorem Settles.attempt
    {program : Program Call Answer ε α}
    {errors' : ε' -> Prop}
    (settles : program.Settles calls errors) :
    (program.attempt : Program Call Answer ε' _).Settles calls errors' := by
  induction program with
  | done result => trivial
  | call request rest inductionHypothesis =>
      exact ⟨settles.1, fun answer => inductionHypothesis answer (settles.2 answer)⟩
  | exhausted => exact settles.elim

theorem Settles.mono
    {weaker : ε -> Prop}
    {program : Program Call Answer ε α}
    (settles : program.Settles calls errors)
    (implies : ∀ error, errors error -> weaker error) :
    program.Settles calls weaker := by
  induction program with
  | done result =>
      cases result with
      | ok value => trivial
      | error error => exact implies error settles
  | call request rest inductionHypothesis =>
      exact ⟨settles.1, fun answer => inductionHypothesis answer (settles.2 answer)⟩
  | exhausted => exact settles.elim

/-- What remains of a program that always ends does so too, and its calls were permitted. -/
theorem Settles.steps
    {program rest : Program Call Answer ε α}
    {trace : List (Event Call Answer)}
    (settles : program.Settles calls errors)
    (steps : Steps program trace rest) :
    (∀ event ∈ trace, calls event.call) ∧ rest.Settles calls errors := by
  induction steps with
  | refl program => exact ⟨by simp, settles⟩
  | call _ inductionHypothesis =>
      obtain ⟨later, settled⟩ := inductionHypothesis (settles.2 _)
      refine ⟨?_, settled⟩
      rintro event (_ | ⟨_, member⟩)
      · exact settles.1
      · exact later event member

/-- A program that always ends never gives up. -/
theorem Settles.not_exhausted
    {program : Program Call Answer ε α}
    {trace : List (Event Call Answer)}
    (settles : program.Settles calls errors) :
    ¬Steps program trace .exhausted :=
  fun steps => (settles.steps steps).2

theorem Settles.error
    {program : Program Call Answer ε α}
    {trace : List (Event Call Answer)}
    {error : ε}
    (settles : program.Settles calls errors)
    (ended : Ends program trace (.error error)) :
    errors error :=
  (settles.steps ended).2

end Program
end Effect
