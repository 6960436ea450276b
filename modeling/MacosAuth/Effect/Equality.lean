import MacosAuth.Effect.Program

/-!
# Equal programs

Two programs are equal when no environment can tell them apart: they make the same calls
after the same answers and have the same outcomes. A composition determines what follows
its first part exactly for the values that this part can return.
-/

namespace Effect
namespace Program

variable {Call : Type} {Answer : Call -> Type}

theorem bind_assoc
    (program : Program Call Answer ε α)
    (first : α -> Program Call Answer ε β)
    (second : β -> Program Call Answer ε γ) :
    program >>= first >>= second = program >>= fun value => first value >>= second := by
  change (program.bind first).bind second = program.bind fun value => (first value).bind second
  induction program with
  | done result =>
      cases result with
      | ok value => rfl
      | error error => rfl
  | call request rest inductionHypothesis =>
      simp only [bind]
      congr 1
      ext answer
      exact inductionHypothesis answer
  | exhausted => rfl

/-- Some execution returns the value. -/
def CanReturn (program : Program Call Answer ε α) (value : α) : Prop :=
  ∃ trace, Ends program trace (.ok value)

theorem CanReturn.bind
    {program : Program Call Answer ε α}
    {next : α -> Program Call Answer ε β}
    {value : α}
    {result : β}
    (returns : program.CanReturn value)
    (continues : (next value).CanReturn result) :
    (program >>= next).CanReturn result := by
  obtain ⟨first, ends⟩ := returns
  obtain ⟨second, continued⟩ := continues
  exact ⟨first ++ second, (ends_bind_ok _ _ _ _).mpr ⟨first, second, value, rfl, ends, continued⟩⟩

theorem canReturn_perform
    {request : Call}
    (answer : Answer request) :
    (perform request : Program Call Answer ε _).CanReturn answer :=
  ⟨[⟨request, answer⟩], (ends_perform _ _ _).mpr ⟨answer, rfl, rfl⟩⟩

theorem canReturn_done (value : α) :
    (Program.done (.ok value) : Program Call Answer ε α).CanReturn value :=
  ⟨[], .refl _⟩

theorem canReturn_mapError
    {program : Program Call Answer ε α}
    {translate : ε -> ε'}
    {value : α} :
    (program.mapError translate).CanReturn value ↔ program.CanReturn value := by
  simp only [CanReturn, ends_mapError_ok]

theorem canReturn_bind_iff
    {program : Program Call Answer ε α}
    {next : α -> Program Call Answer ε β}
    {result : β} :
    (program >>= next).CanReturn result ↔
      ∃ value, program.CanReturn value ∧ (next value).CanReturn result := by
  constructor
  · rintro ⟨trace, ends⟩
    obtain ⟨first, second, value, rfl, ended, continued⟩ := (ends_bind_ok _ _ _ _).mp ends
    exact ⟨value, ⟨first, ended⟩, ⟨second, continued⟩⟩
  · rintro ⟨value, returns, continues⟩
    exact returns.bind continues

/-- What follows a program matters for the values that it can return. -/
theorem bind_congr
    {program : Program Call Answer ε α}
    {first second : α -> Program Call Answer ε β}
    (alike : ∀ value, program.CanReturn value -> first value = second value) :
    program >>= first = program >>= second := by
  change program.bind first = program.bind second
  induction program with
  | done result =>
      cases result with
      | ok value => exact alike value (canReturn_done value)
      | error error => rfl
  | call request rest inductionHypothesis =>
      simp only [bind]
      congr 1
      ext answer
      refine inductionHypothesis answer fun value returns => ?_
      obtain ⟨trace, ends⟩ := returns
      exact alike value ⟨_, .call ends⟩
  | exhausted => rfl

theorem eq_of_bind_eq
    {program : Program Call Answer ε α}
    {first second : α -> Program Call Answer ε β}
    (equal : program >>= first = program >>= second)
    {value : α}
    (returns : program.CanReturn value) :
    first value = second value := by
  change program.bind first = program.bind second at equal
  obtain ⟨trace, ends⟩ := returns
  induction program generalizing trace with
  | done result =>
      obtain ⟨rfl, rfl⟩ := (ends_done _ _ _).mp ends
      exact equal
  | call request rest inductionHypothesis =>
      obtain ⟨answer, tail, rfl, ended⟩ := (ends_call _ _ _ _).mp ends
      have same := (Program.call.inj equal).2
      exact inductionHypothesis answer (congrFun (eq_of_heq same) answer) tail ended
  | exhausted => exact absurd ends (not_ends_exhausted _ _)

/-! ## Errors -/

theorem mapError_bind
    (program : Program Call Answer ε α)
    (next : α -> Program Call Answer ε β)
    (translate : ε -> ε') :
    (program >>= next).mapError translate =
      program.mapError translate >>= fun value => (next value).mapError translate := by
  change (program.bind next).mapError translate =
    (program.mapError translate).bind fun value => (next value).mapError translate
  induction program with
  | done result => cases result <;> rfl
  | call request rest inductionHypothesis =>
      simp only [bind, mapError]
      congr 1
      ext answer
      exact inductionHypothesis answer
  | exhausted => rfl

theorem mapError_mapError
    (program : Program Call Answer ε α)
    (first : ε -> ε')
    (second : ε' -> ε'') :
    (program.mapError first).mapError second =
      program.mapError fun error => second (first error) := by
  induction program with
  | done result => cases result <;> rfl
  | call request rest inductionHypothesis =>
      simp only [mapError]
      congr 1
      ext answer
      exact inductionHypothesis answer
  | exhausted => rfl

theorem mapError_id (program : Program Call Answer ε α) :
    (program.mapError fun error => error) = program := by
  induction program with
  | done result => cases result <;> rfl
  | call request rest inductionHypothesis =>
      simp only [mapError]
      congr 1
      ext answer
      exact inductionHypothesis answer
  | exhausted => rfl

/-- An attempt whose failure is passed on needs no attempt. -/
theorem attempt_bind_eq
    (program : Program Call Answer ε α)
    {next : Except ε α -> Program Call Answer ε' β}
    {translate : ε -> ε'}
    (passes : ∀ error, next (.error error) = fail (translate error)) :
    program.attempt >>= next = program.mapError translate >>= fun value => next (.ok value) := by
  change program.attempt.bind next = (program.mapError translate).bind fun value => next (.ok value)
  induction program with
  | done result =>
      cases result with
      | ok value => rfl
      | error error => exact passes error
  | call request rest inductionHypothesis =>
      simp only [attempt, bind, mapError]
      congr 1
      ext answer
      exact inductionHypothesis answer
  | exhausted => rfl

/-- Every error of the program is one of these. -/
def FailsWith (errors : ε -> Prop) (program : Program Call Answer ε α) : Prop :=
  ∀ trace error, Ends program trace (.error error) -> errors error

section FailsWith

variable {errors : ε -> Prop}

theorem failsWith_pure (value : α) :
    FailsWith errors (pure value : Program Call Answer ε α) := by
  intro trace error ends
  exact nomatch ((ends_pure _ _ _).mp ends).2

theorem failsWith_fail
    {error : ε}
    (permitted : errors error) :
    FailsWith errors (fail error : Program Call Answer ε α) := by
  intro trace other ends
  obtain rfl := Except.error.inj ((ends_fail _ _ _).mp ends).2
  exact permitted

theorem FailsWith.bind
    {program : Program Call Answer ε α}
    {next : α -> Program Call Answer ε β}
    (fails : FailsWith errors program)
    (continues : ∀ value, FailsWith errors (next value)) :
    FailsWith errors (program >>= next) := by
  intro trace error ends
  rcases (ends_bind _ _ _ _).mp ends with ⟨_, second, value, _, _, continued⟩ | ⟨_, failed, equal⟩
  · exact continues value second error continued
  · obtain rfl := Except.error.inj equal
    exact fails trace _ failed

theorem FailsWith.mapError
    {causes : ε' -> Prop}
    {program : Program Call Answer ε' α}
    {translate : ε' -> ε}
    (fails : FailsWith causes program)
    (permitted : ∀ cause, causes cause -> errors (translate cause)) :
    FailsWith errors (program.mapError translate) := by
  intro trace error ends
  obtain ⟨cause, ended, rfl⟩ := ends_mapError_error.mp ends
  exact permitted cause (fails trace cause ended)

theorem failsWith_mapError
    {translate : ε' -> ε}
    (permitted : ∀ cause, errors (translate cause))
    (program : Program Call Answer ε' α) :
    FailsWith errors (program.mapError translate) :=
  FailsWith.mapError (fun _ _ _ => trivial) fun cause _ => permitted cause

theorem FailsWith.mono
    {strong : ε -> Prop}
    {program : Program Call Answer ε α}
    (fails : FailsWith strong program)
    (implies : ∀ error, strong error -> errors error) :
    FailsWith errors program :=
  fun trace error ends => implies error (fails trace error ends)

theorem FailsWith.ne_fail
    {program : Program Call Answer ε α}
    {error : ε}
    (fails : FailsWith errors program)
    (other : ¬errors error) :
    program ≠ fail error := by
  rintro rfl
  exact other (fails [] error ((ends_fail _ _ _).mpr ⟨rfl, rfl⟩))

end FailsWith

end Program
end Effect
