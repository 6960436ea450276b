import Mathlib.Data.UInt

/-!
# Arithmetic on 64-bit words

The ways in which a language may treat a result that does not fit: stop the program,
or hand over the wrapped result together with a flag. An operation that stops is a
partial function, so that a value says that nothing has overflowed.
-/

namespace Word

/-- Addition that stops the program when the sum does not fit. -/
def checkedAdd (left right : UInt64) : Option UInt64 :=
  if left.toNat + right.toNat < UInt64.size then some (left + right) else none

/-- Subtraction that stops the program below zero. -/
def checkedSub (left right : UInt64) : Option UInt64 :=
  if right ≤ left then some (left - right) else none

/-- The wrapped sum, and whether it was wrapped. -/
def addReportingOverflow (left right : UInt64) : UInt64 × Bool :=
  (left + right, decide (UInt64.size ≤ left.toNat + right.toNat))

/-- The wrapped product, and whether it was wrapped. -/
def mulReportingOverflow (left right : UInt64) : UInt64 × Bool :=
  (left * right, decide (UInt64.size ≤ left.toNat * right.toNat))

/-- Conversion to a signed 32-bit integer that stops the program when it does not fit. -/
def checkedInt32 (value : UInt64) : Option Nat :=
  if value.toNat < 2 ^ 31 then some value.toNat else none

theorem checkedAdd_of_lt
    {left right : UInt64}
    (fits : left.toNat + right.toNat < UInt64.size) :
    checkedAdd left right = some (left + right) :=
  if_pos fits

theorem checkedSub_of_le
    {left right : UInt64}
    (ordered : right ≤ left) :
    checkedSub left right = some (left - right) :=
  if_pos ordered

theorem checkedInt32_of_lt
    {value : UInt64}
    (fits : value.toNat < 2 ^ 31) :
    checkedInt32 value = some value.toNat :=
  if_pos fits

end Word
