import Mathlib.Data.List.DropRight

/-!
# Trimming

Removing the elements with some property from both ends of a list.
-/

namespace Codec

variable {α : Type} (blank : α -> Bool)

def trimBoth (text : List α) : List α :=
  (text.dropWhile blank).rdropWhile blank

variable {blank}

theorem dropWhile_append_of_all
    {left : List α}
    (allBlank : ∀ item ∈ left, blank item = true)
    (right : List α) :
    (left ++ right).dropWhile blank = right.dropWhile blank := by
  rw [List.dropWhile_append, List.dropWhile_eq_nil_iff.mpr allBlank]
  rfl

theorem rdropWhile_append_of_all
    {right : List α}
    (allBlank : ∀ item ∈ right, blank item = true)
    (left : List α) :
    (left ++ right).rdropWhile blank = left.rdropWhile blank := by
  rw [List.rdropWhile, List.reverse_append, dropWhile_append_of_all]
  · rfl
  · exact fun item member => allBlank item (List.mem_reverse.mp member)

theorem rdropWhile_append_of_exists
    {right : List α}
    (solid : ∃ item ∈ right, blank item = false)
    (left : List α) :
    (left ++ right).rdropWhile blank = left ++ right.rdropWhile blank := by
  have nonempty : right.reverse.dropWhile blank ≠ [] := by
    rw [ne_eq, List.dropWhile_eq_nil_iff]
    intro allBlank
    obtain ⟨item, member, isSolid⟩ := solid
    rw [allBlank item (List.mem_reverse.mpr member)] at isSolid
    exact absurd isSolid (by simp)
  rw [List.rdropWhile, List.rdropWhile, List.reverse_append, List.dropWhile_append,
    if_neg (by simpa using nonempty), List.reverse_append, List.reverse_reverse]

theorem mem_of_mem_trimBoth
    {text : List α}
    {item : α}
    (member : item ∈ trimBoth blank text) :
    item ∈ text :=
  (List.dropWhile_sublist blank).subset ((List.rdropWhile_prefix blank _).subset member)

/-- What is left after dropping starts with an item that is not blank. -/
theorem dropWhile_eq_nil_or_cons (blank : α -> Bool) (text : List α) :
    text.dropWhile blank = [] ∨
      ∃ first rest, text.dropWhile blank = first :: rest ∧ blank first = false := by
  induction text with
  | nil => exact .inl rfl
  | cons item text inductionHypothesis =>
      cases isBlank : blank item with
      | true => rwa [List.dropWhile_cons_of_pos isBlank]
      | false =>
          exact .inr ⟨item, text, List.dropWhile_cons_of_neg (by simp [isBlank]), isBlank⟩

theorem trimBoth_eq_nil_iff {text : List α} :
    trimBoth blank text = [] ↔ ∀ item ∈ text, blank item = true := by
  rw [trimBoth, List.rdropWhile_eq_nil_iff]
  constructor
  · intro restBlank
    rcases dropWhile_eq_nil_or_cons blank text with empty | ⟨first, rest, split, solid⟩
    · exact List.dropWhile_eq_nil_iff.mp empty
    · rw [restBlank first (by simp [split])] at solid
      exact absurd solid (by simp)
  · intro allBlank
    rw [List.dropWhile_eq_nil_iff.mpr allBlank]
    exact fun item member => absurd member (by simp)

/-- A trimmed text that is not empty starts with an item that is not blank. -/
theorem trimBoth_eq_nil_or_cons (blank : α -> Bool) (text : List α) :
    trimBoth blank text = [] ∨
      ∃ first rest, trimBoth blank text = first :: rest ∧ blank first = false := by
  rcases dropWhile_eq_nil_or_cons blank text with empty | ⟨first, rest, split, solid⟩
  · exact .inl (by rw [trimBoth, empty, List.rdropWhile_nil])
  · right
    have whole : trimBoth blank text = ([] ++ (first :: rest)).rdropWhile blank := by
      rw [trimBoth, split, List.nil_append]
    have nonempty : (first :: rest).rdropWhile blank ≠ [] := by
      rw [ne_eq, List.rdropWhile_eq_nil_iff]
      intro allBlank
      rw [allBlank first (by simp)] at solid
      exact absurd solid (by simp)
    obtain ⟨head, tail, cons⟩ := List.exists_cons_of_ne_nil nonempty
    have isPrefix := List.rdropWhile_prefix blank (first :: rest)
    rw [cons] at isPrefix
    obtain ⟨rfl, -⟩ := List.cons_prefix_cons.mp isPrefix
    exact ⟨head, tail, by rw [whole, List.nil_append, cons], solid⟩

theorem trimBoth_trimBoth (text : List α) :
    trimBoth blank (trimBoth blank text) = trimBoth blank text := by
  have front : (trimBoth blank text).dropWhile blank = trimBoth blank text := by
    rcases trimBoth_eq_nil_or_cons blank text with empty | ⟨first, rest, split, solid⟩
    · rw [empty, List.dropWhile_nil]
    · rw [split, List.dropWhile_cons_of_neg (by simp [solid])]
  calc
    trimBoth blank (trimBoth blank text) = (trimBoth blank text).rdropWhile blank := by
      rw [trimBoth.eq_def blank (trimBoth blank text), front]
    _ = trimBoth blank text := List.rdropWhile_idempotent _ _

theorem trimBoth_append_left
    {left : List α}
    (allBlank : ∀ item ∈ left, blank item = true)
    (right : List α) :
    trimBoth blank (left ++ right) = trimBoth blank right := by
  rw [trimBoth, dropWhile_append_of_all allBlank, trimBoth]

theorem trimBoth_append_right
    {right : List α}
    (allBlank : ∀ item ∈ right, blank item = true)
    (left : List α) :
    trimBoth blank (left ++ right) = trimBoth blank left := by
  by_cases leftBlank : ∀ item ∈ left, blank item = true
  · rw [trimBoth_append_left leftBlank, trimBoth_eq_nil_iff.mpr allBlank,
      trimBoth_eq_nil_iff.mpr leftBlank]
  · have nonempty : left.dropWhile blank ≠ [] := by
      rwa [ne_eq, List.dropWhile_eq_nil_iff]
    rw [trimBoth, List.dropWhile_append, if_neg (by simpa using nonempty),
      rdropWhile_append_of_all allBlank, trimBoth]

/-- Between two parts that are not blank nothing is dropped. -/
theorem trimBoth_append
    {left right : List α}
    (leftSolid : ∃ item ∈ left, blank item = false)
    (rightSolid : ∃ item ∈ right, blank item = false) :
    trimBoth blank (left ++ right) = left.dropWhile blank ++ right.rdropWhile blank := by
  have nonempty : left.dropWhile blank ≠ [] := by
    rw [ne_eq, List.dropWhile_eq_nil_iff]
    intro allBlank
    obtain ⟨item, member, isSolid⟩ := leftSolid
    rw [allBlank item member] at isSolid
    exact absurd isSolid (by simp)
  rw [trimBoth, List.dropWhile_append, if_neg (by simpa using nonempty),
    rdropWhile_append_of_exists rightSolid]

/-- An item that is not blank keeps everything in front of it from being dropped. -/
theorem rdropWhile_append_cons
    {item : α}
    (solid : blank item = false)
    (left right : List α) :
    (left ++ item :: right).rdropWhile blank = left ++ item :: right.rdropWhile blank := by
  rw [rdropWhile_append_of_exists ⟨item, by simp, solid⟩, ← List.singleton_append]
  congr 1
  by_cases rightSolid : ∃ other ∈ right, blank other = false
  · exact rdropWhile_append_of_exists rightSolid [item]
  · have rightBlank : ∀ other ∈ right, blank other = true := by
      simpa using rightSolid
    rw [rdropWhile_append_of_all rightBlank, List.rdropWhile_eq_nil_iff.mpr rightBlank,
      List.rdropWhile_singleton, if_neg (by simp [solid])]

theorem trimBoth_append_cons
    {item : α}
    (solid : blank item = false)
    (left right : List α) :
    trimBoth blank (left ++ item :: right) =
      left.dropWhile blank ++ item :: right.rdropWhile blank := by
  have front : (left ++ item :: right).dropWhile blank =
      left.dropWhile blank ++ item :: right := by
    rw [List.dropWhile_append]
    split_ifs with empty
    · rw [List.isEmpty_iff.mp empty, List.dropWhile_cons_of_neg (by simp [solid]),
        List.nil_append]
    · rfl
  rw [trimBoth, front, rdropWhile_append_cons solid]

theorem trimBoth_rdropWhile (text : List α) :
    trimBoth blank (text.rdropWhile blank) = trimBoth blank text := by
  have dropped : ∀ item ∈ text.rtakeWhile blank, blank item = true :=
    fun item member => List.mem_rtakeWhile_imp member
  have whole := trimBoth_append_right dropped (text.rdropWhile blank)
  rw [List.rdropWhile_append_rtakeWhile] at whole
  exact whole.symm

/-- Texts without blanks are not trimmed. -/
theorem trimBoth_eq_self
    {text : List α}
    (solid : ∀ item ∈ text, blank item = false) :
    trimBoth blank text = text := by
  have front : text.dropWhile blank = text := by
    cases text with
    | nil => rfl
    | cons first rest => exact List.dropWhile_cons_of_neg (by simp [solid first (by simp)])
  rw [trimBoth, front, List.rdropWhile_eq_self_iff]
  intro nonempty
  simp [solid _ (List.getLast_mem nonempty)]

end Codec
