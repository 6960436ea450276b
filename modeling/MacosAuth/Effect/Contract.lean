import MacosAuth.Effect.Program

/-!
# Contracts of programs

A contract says which answers a program may rely on, which calls it may make in
view of the calls and answers that came before, and what holds when a bounded loop
gives up. `Meets` is the corresponding precondition-postcondition judgement: the
postcondition sees the whole past and the outcome. The rules follow the
constructors of programs, and `Meets.steps` turns a judgement into a statement
about every execution in which the environment keeps its side.
-/

namespace Effect

/-- Conditions on the answers to a program, on its calls and on its exhausted
loops. -/
structure Contract (Call : Type) (Answer : Call -> Type) where
  /-- The call may be answered so after this past. -/
  relies : List (Event Call Answer) -> Event Call Answer -> Prop
  /-- The call may be made after this past. -/
  allows : List (Event Call Answer) -> Call -> Prop
  /-- A loop may give up after this past. -/
  givesUp : List (Event Call Answer) -> Prop

namespace Program

variable {Call : Type} {Answer : Call -> Type}

/-- From the given past, every execution with answers that the contract relies on
keeps the contract, and every outcome satisfies the postcondition together with the
whole past. -/
def Meets (contract : Contract Call Answer) :
    Program Call Answer ε α -> List (Event Call Answer) ->
      (List (Event Call Answer) -> Except ε α -> Prop) -> Prop
  | .done result, past, post => post past result
  | .call request next, past, post =>
      contract.allows past request ∧
        ∀ answer, contract.relies past ⟨request, answer⟩ ->
          (next answer).Meets contract (past ++ [⟨request, answer⟩]) post
  | .exhausted, past, _ => contract.givesUp past

variable {contract : Contract Call Answer}
variable {past : List (Event Call Answer)}

@[simp] theorem meets_done
    (result : Except ε α)
    (post : List (Event Call Answer) -> Except ε α -> Prop) :
    (Program.done result).Meets contract past post ↔ post past result :=
  Iff.rfl

@[simp] theorem meets_pure
    (value : α)
    (post : List (Event Call Answer) -> Except ε α -> Prop) :
    (pure value : Program Call Answer ε α).Meets contract past post ↔
      post past (.ok value) :=
  Iff.rfl

@[simp] theorem meets_fail
    (error : ε)
    (post : List (Event Call Answer) -> Except ε α -> Prop) :
    (fail error : Program Call Answer ε α).Meets contract past post ↔
      post past (.error error) :=
  Iff.rfl

@[simp] theorem meets_perform
    (request : Call)
    (post : List (Event Call Answer) -> Except ε (Answer request) -> Prop) :
    (perform request : Program Call Answer ε _).Meets contract past post ↔
      contract.allows past request ∧
        ∀ answer, contract.relies past ⟨request, answer⟩ ->
          post (past ++ [⟨request, answer⟩]) (.ok answer) :=
  Iff.rfl

@[simp] theorem meets_exhausted
    (post : List (Event Call Answer) -> Except ε α -> Prop) :
    (exhausted : Program Call Answer ε α).Meets contract past post ↔
      contract.givesUp past :=
  Iff.rfl

/-- Composition: the first program establishes the precondition of the second,
or its error is the outcome. -/
theorem meets_bind
    (program : Program Call Answer ε α)
    (next : α -> Program Call Answer ε β)
    (post : List (Event Call Answer) -> Except ε β -> Prop) :
    (program >>= next).Meets contract past post ↔
      program.Meets contract past fun later result =>
        match result with
        | .ok value => (next value).Meets contract later post
        | .error error => post later (.error error) := by
  change (program.bind next).Meets contract past post ↔ _
  induction program generalizing past with
  | done result => cases result <;> exact Iff.rfl
  | call request rest inductionHypothesis =>
      simp only [bind, Meets]
      exact and_congr_right fun _ =>
        forall_congr' fun answer => imp_congr_right fun _ => inductionHypothesis answer
  | exhausted => exact Iff.rfl

/-- Weaken the postcondition. -/
theorem Meets.mono
    {program : Program Call Answer ε α}
    {strong weak : List (Event Call Answer) -> Except ε α -> Prop}
    (meets : program.Meets contract past strong)
    (implies : ∀ later result, strong later result -> weak later result) :
    program.Meets contract past weak := by
  induction program generalizing past with
  | done result => exact implies _ _ meets
  | call request next inductionHypothesis =>
      exact ⟨meets.1, fun answer relied =>
        inductionHypothesis answer (meets.2 answer relied)⟩
  | exhausted => exact meets

/-- Composition, with an intermediate condition. -/
theorem Meets.bind
    {program : Program Call Answer ε α}
    {next : α -> Program Call Answer ε β}
    {middle : List (Event Call Answer) -> Except ε α -> Prop}
    {post : List (Event Call Answer) -> Except ε β -> Prop}
    (meets : program.Meets contract past middle)
    (continues : ∀ later value, middle later (.ok value) ->
      (next value).Meets contract later post)
    (fails : ∀ later error, middle later (.error error) -> post later (.error error)) :
    (program >>= next).Meets contract past post := by
  rw [meets_bind]
  refine meets.mono fun later result holds => ?_
  cases result with
  | ok value => exact continues later value holds
  | error error => exact fails later error holds

/-- Composition after a single call. -/
theorem meets_perform_bind
    (request : Call)
    (next : Answer request -> Program Call Answer ε α)
    (post : List (Event Call Answer) -> Except ε α -> Prop) :
    (perform request >>= next).Meets contract past post ↔
      contract.allows past request ∧
        ∀ answer, contract.relies past ⟨request, answer⟩ ->
          (next answer).Meets contract (past ++ [⟨request, answer⟩]) post :=
  Iff.rfl

@[simp] theorem meets_attempt
    (program : Program Call Answer ε α)
    (post : List (Event Call Answer) -> Except ε' (Except ε α) -> Prop) :
    (program.attempt : Program Call Answer ε' _).Meets contract past post ↔
      program.Meets contract past fun later result => post later (.ok result) := by
  induction program generalizing past with
  | done result => exact Iff.rfl
  | call request rest inductionHypothesis =>
      simp only [attempt, Meets]
      exact and_congr_right fun _ =>
        forall_congr' fun answer => imp_congr_right fun _ => inductionHypothesis answer
  | exhausted => exact Iff.rfl

/-- Composition after an attempt, which has no error of its own. -/
theorem Meets.attempt_bind
    {program : Program Call Answer ε α}
    {next : Except ε α -> Program Call Answer ε' β}
    {middle : List (Event Call Answer) -> Except ε α -> Prop}
    {post : List (Event Call Answer) -> Except ε' β -> Prop}
    (meets : program.Meets contract past middle)
    (continues : ∀ later result, middle later result ->
      (next result).Meets contract later post) :
    (program.attempt >>= next).Meets contract past post := by
  rw [meets_bind, meets_attempt]
  exact meets.mono continues

@[simp] theorem meets_mapError
    (translate : ε -> ε')
    (program : Program Call Answer ε α)
    (post : List (Event Call Answer) -> Except ε' α -> Prop) :
    (program.mapError translate).Meets contract past post ↔
      program.Meets contract past fun later result =>
        post later (result.mapError translate) := by
  induction program generalizing past with
  | done result => cases result <;> exact Iff.rfl
  | call request rest inductionHypothesis =>
      simp only [mapError, Meets]
      exact and_congr_right fun _ =>
        forall_congr' fun answer => imp_congr_right fun _ => inductionHypothesis answer
  | exhausted => exact Iff.rfl

/-- Composition after a program with translated errors. -/
theorem Meets.mapError_bind
    {translate : ε -> ε'}
    {program : Program Call Answer ε α}
    {next : α -> Program Call Answer ε' β}
    {middle : List (Event Call Answer) -> Except ε α -> Prop}
    {post : List (Event Call Answer) -> Except ε' β -> Prop}
    (meets : program.Meets contract past middle)
    (continues : ∀ later value, middle later (.ok value) ->
      (next value).Meets contract later post)
    (fails : ∀ later error, middle later (.error error) ->
      post later (.error (translate error))) :
    (program.mapError translate >>= next).Meets contract past post := by
  rw [meets_bind, meets_mapError]
  refine meets.mono fun later result holds => ?_
  cases result with
  | ok value => exact continues later value holds
  | error error => exact fails later error holds

/-- The past of an outcome extends the past of the program. -/
theorem Meets.extends
    {program : Program Call Answer ε α}
    {post : List (Event Call Answer) -> Except ε α -> Prop}
    (meets : program.Meets contract past post) :
    program.Meets contract past fun later result => past <+: later ∧ post later result := by
  induction program generalizing past with
  | done result => exact ⟨List.prefix_refl _, meets⟩
  | call request next inductionHypothesis =>
      refine ⟨meets.1, fun answer relied => ?_⟩
      refine (inductionHypothesis answer (meets.2 answer relied)).mono ?_
      rintro later result ⟨extended, holds⟩
      exact ⟨(List.prefix_append _ _).trans extended, holds⟩
  | exhausted => exact meets

/-- The judgement travels along an execution whose answers can be relied on: every
call of the trace was allowed when it was made, and what remains still meets the
contract. -/
theorem Meets.steps
    {program rest : Program Call Answer ε α}
    {trace : List (Event Call Answer)}
    {post : List (Event Call Answer) -> Except ε α -> Prop}
    (meets : program.Meets contract past post)
    (steps : Steps program trace rest)
    (relied : ∀ before event after, trace = before ++ event :: after ->
      contract.relies (past ++ before) event) :
    (∀ before event after, trace = before ++ event :: after ->
      contract.allows (past ++ before) event.call) ∧
      rest.Meets contract (past ++ trace) post := by
  induction steps generalizing past with
  | refl program => exact ⟨by simp, by simpa using meets⟩
  | @call request next answer trace rest _ inductionHypothesis =>
      have answered := relied [] ⟨request, answer⟩ trace rfl
      rw [List.append_nil] at answered
      obtain ⟨allowed, continued⟩ := inductionHypothesis (meets.2 answer answered) (by
        intro before event after split
        have later := relied (⟨request, answer⟩ :: before) event after (by rw [split]; rfl)
        simpa using later)
      refine ⟨?_, by simpa using continued⟩
      intro before event after split
      cases before with
      | nil =>
          obtain ⟨rfl, rfl⟩ := List.cons.inj split
          simpa using meets.1
      | cons head before =>
          obtain ⟨rfl, rfl⟩ := List.cons.inj split
          simpa using allowed before event after rfl

/-- What a judgement says about an execution that has ended. -/
theorem Meets.outcome
    {program : Program Call Answer ε α}
    {trace : List (Event Call Answer)}
    {result : Except ε α}
    {post : List (Event Call Answer) -> Except ε α -> Prop}
    (meets : program.Meets contract [] post)
    (ended : Ends program trace result)
    (relied : ∀ before event after, trace = before ++ event :: after ->
      contract.relies before event) :
    post trace result :=
  (meets.steps ended relied).2

/-- What a judgement says about an execution that has used up its rounds. -/
theorem Meets.exhaustion
    {program : Program Call Answer ε α}
    {trace : List (Event Call Answer)}
    {post : List (Event Call Answer) -> Except ε α -> Prop}
    (meets : program.Meets contract [] post)
    (steps : Steps program trace .exhausted)
    (relied : ∀ before event after, trace = before ++ event :: after ->
      contract.relies before event) :
    contract.givesUp trace :=
  (meets.steps steps relied).2

/-- A program that always ends meets a contract that allows its calls. -/
theorem Settles.meets
    {calls : Call -> Prop}
    {errors : ε -> Prop}
    {program : Program Call Answer ε α}
    (settles : program.Settles calls errors)
    (allowed : ∀ past request, calls request -> contract.allows past request) :
    program.Meets contract past fun later result =>
      past <+: later ∧ ∀ error, result = .error error -> errors error := by
  induction program generalizing past with
  | done result =>
      refine ⟨List.prefix_refl _, ?_⟩
      rintro error rfl
      exact settles
  | call request next inductionHypothesis =>
      refine ⟨allowed _ _ settles.1, fun answer _ => ?_⟩
      refine (inductionHypothesis answer (settles.2 answer)).mono ?_
      rintro later result ⟨extended, fine⟩
      exact ⟨(List.prefix_append _ _).trans extended, fine⟩
  | exhausted => exact settles.elim

/-- Pass to a contract that relies on more and promises less. -/
theorem Meets.weaken
    {weaker : Contract Call Answer}
    {program : Program Call Answer ε α}
    {post : List (Event Call Answer) -> Except ε α -> Prop}
    (meets : program.Meets contract past post)
    (relies : ∀ past event, weaker.relies past event -> contract.relies past event)
    (allows : ∀ past request, contract.allows past request -> weaker.allows past request)
    (givesUp : ∀ past, contract.givesUp past -> weaker.givesUp past) :
    program.Meets weaker past post := by
  induction program generalizing past with
  | done result => exact meets
  | call request next inductionHypothesis =>
      exact ⟨allows _ _ meets.1, fun answer relied =>
        inductionHypothesis answer (meets.2 answer (relies _ _ relied))⟩
  | exhausted => exact givesUp _ meets

/-- An outcome comes with the execution that led to it. -/
theorem Meets.ended
    {program : Program Call Answer ε α}
    {post : List (Event Call Answer) -> Except ε α -> Prop}
    (meets : program.Meets contract past post) :
    program.Meets contract past fun later result =>
      ∃ trace, later = past ++ trace ∧ Ends program trace result ∧ post later result := by
  induction program generalizing past with
  | done result => exact ⟨[], by simp, .refl _, meets⟩
  | call request next inductionHypothesis =>
      refine ⟨meets.1, fun answer relied => ?_⟩
      refine (inductionHypothesis answer (meets.2 answer relied)).mono ?_
      rintro later result ⟨trace, rfl, ended, holds⟩
      exact ⟨⟨request, answer⟩ :: trace, by simp, .call ended, holds⟩
  | exhausted => exact meets

/-- An outcome comes with answers that could all be relied on. -/
theorem Meets.answered
    {program : Program Call Answer ε α}
    {post : List (Event Call Answer) -> Except ε α -> Prop}
    (meets : program.Meets contract past post) :
    program.Meets contract past fun later result =>
      post later result ∧ ∃ trace, later = past ++ trace ∧ Ends program trace result ∧
        ∀ before event after, trace = before ++ event :: after ->
          contract.relies (past ++ before) event := by
  induction program generalizing past with
  | done result => exact ⟨meets, [], by simp, .refl _, by simp⟩
  | call request next inductionHypothesis =>
      refine ⟨meets.1, fun answer relied => ?_⟩
      refine (inductionHypothesis answer (meets.2 answer relied)).mono ?_
      rintro later result ⟨holds, trace, rfl, ended, served⟩
      refine ⟨holds, ⟨request, answer⟩ :: trace, by simp, .call ended, ?_⟩
      intro before event after split
      cases before with
      | nil =>
          obtain ⟨rfl, rfl⟩ := List.cons.inj split
          simpa using relied
      | cons head before =>
          obtain ⟨rfl, rfl⟩ := List.cons.inj split
          simpa using served before event after rfl
  | exhausted => exact meets

/-- Composition with a cleanup that makes allowed calls only. -/
theorem Meets.ensuring
    {body : Program Call Answer ε α}
    {cleanup : Program Call Answer ε Unit}
    {middle post : List (Event Call Answer) -> Except ε α -> Prop}
    (meets : body.Meets contract past middle)
    (cleans : ∀ later result, middle later result ->
      cleanup.Meets contract later fun final outcome =>
        match outcome with
        | .ok _ => post final result
        | .error error => post final (.error error)) :
    (body.ensuring cleanup).Meets contract past post := by
  change (body.attempt >>= fun result => cleanup >>= fun _ => .done result).Meets _ _ _
  refine Meets.attempt_bind meets fun later result holds => ?_
  rw [meets_bind]
  refine (cleans later result holds).mono fun final outcome => ?_
  cases outcome <;> exact id

/-! ## Programs that make certain calls only -/

/-- Every call of the program is a permitted one. -/
def Within (permitted : Call -> Prop) : Program Call Answer ε α -> Prop
  | .done _ => True
  | .call request next => permitted request ∧ ∀ answer, (next answer).Within permitted
  | .exhausted => True

variable {permitted : Call -> Prop}

theorem within_done (result : Except ε α) :
    (.done result : Program Call Answer ε α).Within permitted :=
  trivial

theorem within_perform
    {request : Call}
    (fine : permitted request) :
    (perform request : Program Call Answer ε _).Within permitted :=
  ⟨fine, fun _ => trivial⟩

theorem Within.bind
    {program : Program Call Answer ε α}
    {next : α -> Program Call Answer ε β}
    (within : program.Within permitted)
    (continues : ∀ value, (next value).Within permitted) :
    (program >>= next).Within permitted := by
  change (program.bind next).Within permitted
  induction program with
  | done result =>
      cases result with
      | ok value => exact continues value
      | error error => trivial
  | call request rest inductionHypothesis =>
      exact ⟨within.1, fun answer => inductionHypothesis answer (within.2 answer)⟩
  | exhausted => trivial

theorem Within.attempt
    {program : Program Call Answer ε α}
    (within : program.Within permitted) :
    (program.attempt : Program Call Answer ε' _).Within permitted := by
  induction program with
  | done result => trivial
  | call request rest inductionHypothesis =>
      exact ⟨within.1, fun answer => inductionHypothesis answer (within.2 answer)⟩
  | exhausted => trivial

theorem Within.mapError
    {program : Program Call Answer ε α}
    (within : program.Within permitted)
    (translate : ε -> ε') :
    (program.mapError translate).Within permitted := by
  induction program with
  | done result => cases result <;> trivial
  | call request rest inductionHypothesis =>
      exact ⟨within.1, fun answer => inductionHypothesis answer (within.2 answer)⟩
  | exhausted => trivial

theorem Within.ensuring
    {body : Program Call Answer ε α}
    {cleanup : Program Call Answer ε Unit}
    (within : body.Within permitted)
    (cleans : cleanup.Within permitted) :
    (body.ensuring cleanup).Within permitted :=
  Within.bind within.attempt fun _ => Within.bind cleans fun _ => within_done _

theorem Within.mono
    {weaker : Call -> Prop}
    {program : Program Call Answer ε α}
    (within : program.Within permitted)
    (implies : ∀ request, permitted request -> weaker request) :
    program.Within weaker := by
  induction program with
  | done result => trivial
  | call request rest inductionHypothesis =>
      exact ⟨implies _ within.1, fun answer => inductionHypothesis answer (within.2 answer)⟩
  | exhausted => trivial

theorem Within.calls
    {program rest : Program Call Answer ε α}
    {trace : List (Event Call Answer)}
    (within : program.Within permitted)
    (steps : Steps program trace rest) :
    ∀ event ∈ trace, permitted event.call := by
  induction steps with
  | refl program => simp
  | call _ inductionHypothesis =>
      rintro event (_ | ⟨_, member⟩)
      · exact within.1
      · exact inductionHypothesis (within.2 _) event member

/-- A program whose calls are always allowed meets a contract on those calls. -/
theorem Within.meets
    {program : Program Call Answer ε α}
    (within : program.Within permitted)
    (allowed : ∀ past request, permitted request -> contract.allows past request)
    (patient : ∀ past, contract.givesUp past) :
    program.Meets contract past fun later result =>
      ∃ trace, later = past ++ trace ∧ Ends program trace result := by
  induction program generalizing past with
  | done result => exact ⟨[], by simp, .refl _⟩
  | call request next inductionHypothesis =>
      refine ⟨allowed _ _ within.1, fun answer _ => ?_⟩
      refine (inductionHypothesis answer (within.2 answer)).mono ?_
      rintro later result ⟨trace, rfl, ended⟩
      exact ⟨⟨request, answer⟩ :: trace, by simp, .call ended⟩
  | exhausted => exact patient _

end Program
end Effect
