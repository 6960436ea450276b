import Mathlib.Data.List.Basic

/-!
# Lists that diverge

One list diverges below another if it is less at the first place where they differ. Then it
is less in the lexicographic order and not a prefix. Paths of files in one directory tree are
listed like this. The relation is transitive, and of two pairs in it the first of one pair
diverges below the second of the other: it is an interval order.
-/

namespace Collections

/-- The first list is less where the lists differ for the first time. -/
inductive Diverges {α : Type} [LT α] : List α -> List α -> Prop
  | here {first second : α} (less : first < second) (left right : List α) :
      Diverges (first :: left) (second :: right)
  | cons (value : α) {left right : List α} (tails : Diverges left right) :
      Diverges (value :: left) (value :: right)

namespace Diverges

variable {α : Type} [LT α]

theorem cons_cons_iff
    {first second : α}
    {left right : List α} :
    Diverges (first :: left) (second :: right) ↔
      first < second ∨ (first = second ∧ Diverges left right) := by
  constructor
  · intro diverges
    cases diverges with
    | here less => exact .inl less
    | cons _ tails => exact .inr ⟨rfl, tails⟩
  · rintro (less | ⟨rfl, tails⟩)
    · exact .here less left right
    · exact .cons first tails

/-- Diverging is being less without being a prefix. -/
theorem iff_lt_and_not_prefix
    [Std.Irrefl (α := α) (· < ·)]
    {left right : List α} :
    Diverges left right ↔ left < right ∧ ¬left <+: right := by
  induction left generalizing right with
  | nil => exact iff_of_false (fun diverges => nomatch diverges) fun less => less.2 List.nil_prefix
  | cons first left inductionHypothesis =>
      cases right with
      | nil =>
          exact iff_of_false (fun diverges => nomatch diverges)
            fun less => absurd less.1 (List.not_lt_nil _)
      | cons second right =>
          rw [cons_cons_iff, inductionHypothesis, List.cons_lt_cons_iff, List.cons_prefix_cons]
          constructor
          · rintro (less | ⟨rfl, less, notPrefix⟩)
            · exact ⟨.inl less, fun starts => Std.Irrefl.irrefl second (starts.1 ▸ less)⟩
            · exact ⟨.inr ⟨rfl, less⟩, fun starts => notPrefix starts.2⟩
          · rintro ⟨less | ⟨rfl, less⟩, notPrefix⟩
            · exact .inl less
            · exact .inr ⟨rfl, less, fun starts => notPrefix ⟨rfl, starts⟩⟩

theorem trans
    [Trans (α := α) (β := α) (γ := α) (· < ·) (· < ·) (· < ·)]
    {first second third : List α}
    (one : Diverges first second)
    (two : Diverges second third) :
    Diverges first third := by
  induction one generalizing third with
  | here less left right =>
      cases two with
      | here later => exact .here (Trans.trans less later) _ _
      | cons _ tails => exact .here less _ _
  | cons value tails inductionHypothesis =>
      cases two with
      | here later => exact .here later _ _
      | cons _ others => exact .cons value (inductionHypothesis others)

section Cross

variable [Trans (α := α) (β := α) (γ := α) (· < ·) (· < ·) (· < ·)]
variable [Std.Trichotomous (α := α) (· < ·)]

/-- Every value is above the lower or below the upper of two others. -/
theorem lt_or_lt
    {lower upper : α}
    (less : lower < upper)
    (value : α) :
    lower < value ∨ value < upper := by
  by_cases above : lower < value
  · exact .inl above
  · by_cases below : value < lower
    · exact .inr (Trans.trans below less)
    · obtain rfl := Std.Trichotomous.trichotomous lower value above below
      exact .inr less

/-- Two pairs can be crossed at least one way. The induction runs while all four lists begin
with the same value. -/
theorem cross
    {first second third fourth : List α}
    (one : Diverges first second)
    (two : Diverges third fourth) :
    Diverges first fourth ∨ Diverges third second := by
  induction one generalizing third fourth with
  | here less left right =>
      cases two with
      | here other lower upper =>
          rcases lt_or_lt less _ with above | below
          · exact .inl (.here above _ _)
          · exact .inr (.here (Trans.trans other below) _ _)
      | cons value tails =>
          rcases lt_or_lt less value with above | below
          · exact .inl (.here above _ _)
          · exact .inr (.here below _ _)
  | cons value tails inductionHypothesis =>
      cases two with
      | here other lower upper =>
          rcases lt_or_lt other value with above | below
          · exact .inr (.here above _ _)
          · exact .inl (.here below _ _)
      | cons otherValue others =>
          by_cases above : value < otherValue
          · exact .inl (.here above _ _)
          · by_cases below : otherValue < value
            · exact .inr (.here below _ _)
            · obtain rfl := Std.Trichotomous.trichotomous value otherValue above below
              rcases inductionHypothesis others with crossed | crossed
              · exact .inl (.cons value crossed)
              · exact .inr (.cons value crossed)

end Cross

end Diverges
end Collections
