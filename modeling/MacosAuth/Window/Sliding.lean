import Mathlib.Data.List.Basic

/-!
# Sliding windows over a log

A log of times is admitted within a bound when each time was appended while fewer than
that many earlier times lay in the window that ends with it. The bound then holds for
every window, wherever it ends.
-/

namespace Window

/-- The time lies in the closed window of the given width that ends at `last`. -/
def Inside (width last time : Nat) : Prop :=
  last ≤ time + width ∧ time ≤ last

instance (width last time : Nat) : Decidable (Inside width last time) :=
  inferInstanceAs (Decidable (_ ∧ _))

/-- The number of times that lie in the window. -/
def countInside (width last : Nat) (log : List Nat) : Nat :=
  log.countP fun time => Inside width last time

@[simp] theorem countInside_nil (width last : Nat) :
    countInside width last [] = 0 :=
  rfl

theorem countInside_concat (width last time : Nat) (log : List Nat) :
    countInside width last (log ++ [time]) =
      countInside width last log + if Inside width last time then 1 else 0 := by
  simp [countInside, List.countP_append, List.countP_singleton]

/-- A window that ends later, but not before the log does, holds no more of the log. -/
theorem countInside_mono
    {width first second : Nat}
    {log : List Nat}
    (later : first ≤ second)
    (past : ∀ time ∈ log, time ≤ first) :
    countInside width second log ≤ countInside width first log := by
  apply List.countP_mono_left
  intro time member inside
  rw [decide_eq_true_eq] at inside ⊢
  exact ⟨Nat.le_trans later inside.1, past time member⟩

/-- Every time was appended in order, while fewer than `bound` earlier ones lay in the
window that ends with it. -/
inductive Admitted (width bound : Nat) : List Nat -> Prop
  | nil : Admitted width bound []
  | concat {log : List Nat} {time : Nat} :
      Admitted width bound log ->
      (∀ earlier ∈ log, earlier ≤ time) ->
      countInside width time log < bound ->
      Admitted width bound (log ++ [time])

/-- No window holds more than the bound. -/
theorem Admitted.countInside_le
    {width bound : Nat}
    {log : List Nat}
    (admitted : Admitted width bound log)
    (last : Nat) :
    countInside width last log ≤ bound := by
  induction admitted with
  | nil => simp
  | @concat log time _ past room inductionHypothesis =>
      rw [countInside_concat]
      by_cases inside : Inside width last time
      · have later : time ≤ last := inside.2
        have fewer := @countInside_mono width _ _ _ later past
        simp only [inside, if_true]
        omega
      · simp only [inside, if_false]
        omega

end Window
