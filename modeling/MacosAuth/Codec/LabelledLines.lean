import Mathlib.Data.List.Infix

/-!
# Texts of labelled lines

A text is shown as lines that consist of a label and a value, joined by a separator.
Values may contain anything, also the separator. If no value contains the separator
followed by a label that could stand on the next line, then the text determines its
lines.
-/

namespace Codec

variable {κ α : Type}

structure LabelledLine (κ α : Type) where
  key : κ
  value : List α

/-- The labels of the lines and which lines may follow each other. -/
structure LineFormat (κ α : Type) where
  separator : α
  label : κ -> List α
  following : κ -> List κ
  /-- Labels do not contain the separator. -/
  separator_not_mem : ∀ key, separator ∉ label key
  /-- Labels do not extend each other. -/
  apart : ∀ left right, label left <+: label right -> left = right

namespace LineFormat

variable (format : LineFormat κ α)

/-- The text of these lines. -/
def text : List (LabelledLine κ α) -> List α
  | [] => []
  | [line] => format.label line.key ++ line.value
  | line :: next :: rest =>
      format.label line.key ++ (line.value ++ format.separator :: text (next :: rest))

/-- No label that could stand on the next line occurs in the value behind a separator. -/
def Plain (line : LabelledLine κ α) : Prop :=
  ∀ next ∈ format.following line.key,
    ¬(format.separator :: format.label next) <:+: line.value

/-- The lines follow each other as the format has it, and all of them are plain. -/
def Readable : List (LabelledLine κ α) -> Prop
  | [] => True
  | [line] => format.Plain line
  | line :: next :: rest =>
      format.Plain line ∧ next.key ∈ format.following line.key ∧ Readable (next :: rest)

variable {format}

/-- What stands behind a value. -/
def below (format : LineFormat κ α) : List (LabelledLine κ α) -> List α
  | [] => []
  | next :: rest => format.separator :: format.text (next :: rest)

theorem text_cons (line : LabelledLine κ α) (rest : List (LabelledLine κ α)) :
    format.text (line :: rest) = format.label line.key ++ (line.value ++ format.below rest) := by
  cases rest with
  | nil => simp [text, below]
  | cons next rest => rfl

theorem below_cons (next : LabelledLine κ α) (rest : List (LabelledLine κ α)) :
    format.below (next :: rest) =
      format.separator :: (format.label next.key ++ (next.value ++ format.below rest)) := by
  rw [below, text_cons]

theorem Readable.plain
    {line : LabelledLine κ α}
    {rest : List (LabelledLine κ α)}
    (readable : format.Readable (line :: rest)) :
    format.Plain line := by
  cases rest with
  | nil => exact readable
  | cons next rest => exact readable.1

theorem text_eq_intercalate (lines : List (LabelledLine κ α)) :
    format.text lines =
      [format.separator].intercalate
        (lines.map fun line => format.label line.key ++ line.value) := by
  induction lines with
  | nil => rfl
  | cons line rest inductionHypothesis =>
      cases rest with
      | nil => simp [text]
      | cons next rest =>
          have nonempty : (next :: rest).map
              (fun line => format.label line.key ++ line.value) ≠ [] := by simp
          rw [text_cons, below, inductionHypothesis, List.map_cons (l := next :: rest),
            List.intercalate_cons_of_ne_nil nonempty]
          simp only [List.append_assoc, List.singleton_append]

/-- Readable lines, one condition after the other. -/
theorem readable_iff (lines : List (LabelledLine κ α)) :
    format.Readable lines ↔
      (∀ line ∈ lines, format.Plain line) ∧
        lines.IsChain fun line next => next.key ∈ format.following line.key := by
  induction lines with
  | nil => simp [Readable]
  | cons line rest inductionHypothesis =>
      cases rest with
      | nil => simp [Readable]
      | cons next rest =>
          rw [Readable, inductionHypothesis, List.isChain_cons_cons,
            List.forall_mem_cons (l := next :: rest)]
          constructor
          · rintro ⟨plain, follows, restPlain, chain⟩
            exact ⟨⟨plain, restPlain⟩, follows, chain⟩
          · rintro ⟨⟨plain, restPlain⟩, follows, chain⟩
            exact ⟨plain, follows, restPlain, chain⟩

/-- A label behind a separator is not split by another separator. -/
theorem prefix_of_append_eq
    {separator : α}
    {label more extra rest : List α}
    (noSeparator : separator ∉ label)
    (nonempty : extra ≠ [])
    (same : separator :: (label ++ more) = extra ++ rest)
    (starts : rest = [] ∨ ∃ others, rest = separator :: others) :
    (separator :: label) <+: extra := by
  obtain ⟨first, tail, rfl⟩ := List.exists_cons_of_ne_nil nonempty
  obtain ⟨rfl, sameTail⟩ := List.cons.inj same
  rw [List.cons_prefix_cons]
  refine ⟨rfl, ?_⟩
  rcases List.append_eq_append_iff.mp sameTail with ⟨between, split, -⟩ | ⟨between, split, others⟩
  · exact ⟨between, split.symm⟩
  · cases between with
    | nil => exact ⟨[], by rw [split, List.append_nil, List.append_nil]⟩
    | cons middle between =>
        exfalso
        rcases starts with empty | ⟨after, starts⟩
        · rw [empty] at others
          exact absurd others (by simp)
        · rw [starts] at others
          obtain ⟨rfl, -⟩ := List.cons.inj others
          exact noSeparator (by simp [split])

/-- Of two lines with the same text up to here, neither has the longer value. -/
theorem extra_eq_nil
    {line other : LabelledLine κ α}
    {rest otherRest : List (LabelledLine κ α)}
    {extra : List α}
    (readable : format.Readable (line :: rest))
    (otherPlain : format.Plain other)
    (sameKey : line.key = other.key)
    (longer : other.value = line.value ++ extra)
    (sameBelow : format.below rest = extra ++ format.below otherRest) :
    extra = [] := by
  by_contra nonempty
  cases rest with
  | nil =>
      rw [below] at sameBelow
      exact nonempty (List.append_eq_nil_iff.mp sameBelow.symm).1
  | cons next rest =>
      obtain ⟨-, follows, -⟩ := readable
      rw [below_cons] at sameBelow
      have starts : format.below otherRest = [] ∨
          ∃ others, format.below otherRest = format.separator :: others := by
        cases otherRest with
        | nil => exact .inl rfl
        | cons otherNext otherRest => exact .inr ⟨_, rfl⟩
      have isPrefix := prefix_of_append_eq
        (format.separator_not_mem next.key) nonempty sameBelow starts
      refine otherPlain next.key (sameKey ▸ follows) ?_
      rw [longer]
      exact isPrefix.isInfix.trans (List.suffix_append _ _).isInfix

/-- The text determines its lines. By induction over the lines: the first value ends at
the first separator with a label that may stand there. -/
theorem text_injective
    {left right : List (LabelledLine κ α)}
    (leftReadable : format.Readable left)
    (rightReadable : format.Readable right)
    (sameHead : (left.map LabelledLine.key).head? = (right.map LabelledLine.key).head?)
    (sameText : format.text left = format.text right) :
    left = right := by
  induction left generalizing right with
  | nil =>
      cases right with
      | nil => rfl
      | cons line rest => exact absurd sameHead (by simp)
  | cons leftLine leftRest inductionHypothesis =>
      cases right with
      | nil => exact absurd sameHead (by simp)
      | cons rightLine rightRest =>
          have sameKey : leftLine.key = rightLine.key := by simpa using sameHead
          rw [text_cons, text_cons, sameKey, List.append_cancel_left_eq] at sameText
          obtain ⟨sameValue, sameBelow⟩ : leftLine.value = rightLine.value ∧
              format.below leftRest = format.below rightRest := by
            rcases List.append_eq_append_iff.mp sameText with
              ⟨extra, longer, belowEq⟩ | ⟨extra, longer, belowEq⟩
            · have none := extra_eq_nil leftReadable rightReadable.plain sameKey longer belowEq
              rw [none] at longer belowEq
              exact ⟨by rw [longer, List.append_nil], belowEq⟩
            · have none := extra_eq_nil rightReadable leftReadable.plain sameKey.symm longer
                belowEq
              rw [none] at longer belowEq
              exact ⟨by rw [longer, List.append_nil], belowEq.symm⟩
          have sameLine : leftLine = rightLine := by
            cases leftLine
            cases rightLine
            exact congr (congrArg LabelledLine.mk sameKey) sameValue
          have sameRest : leftRest = rightRest := by
            cases leftRest with
            | nil =>
                cases rightRest with
                | nil => rfl
                | cons next rest => exact absurd sameBelow (by simp [below])
            | cons leftNext leftRest =>
                cases rightRest with
                | nil => exact absurd sameBelow (by simp [below])
                | cons rightNext rightRest =>
                    obtain ⟨-, -, leftNextReadable⟩ := leftReadable
                    obtain ⟨-, -, rightNextReadable⟩ := rightReadable
                    have sameNext := (List.cons.inj sameBelow).2
                    refine inductionHypothesis leftNextReadable rightNextReadable ?_ sameNext
                    rw [text_cons, text_cons] at sameNext
                    have keys : leftNext.key = rightNext.key := by
                      rcases List.append_eq_append_iff.mp sameNext with
                        ⟨between, longer, -⟩ | ⟨between, longer, -⟩
                      · exact format.apart _ _ ⟨between, longer.symm⟩
                      · exact (format.apart _ _ ⟨between, longer.symm⟩).symm
                    simp [keys]
          rw [sameLine, sameRest]

end LineFormat
end Codec
