import MacosAuth.Codec.SelfDelimiting

/-!
# Decimal numerals

Natural numbers as ASCII digits. No digit is the zero byte, the numeral of a number is
determined by the number, and the value is found by the loop that multiplies by ten and
adds the next digit.
-/

namespace Codec

/-- The ASCII digits of a number. -/
def decimal (number : Nat) : Bytes :=
  (Nat.toDigits 10 number).map fun digit => UInt8.ofNat digit.toNat

/-- A decimal digit is an ASCII character. -/
theorem digit_bounds
    {number : Nat}
    {digit : Char}
    (member : digit ∈ Nat.toDigits 10 number) :
    48 ≤ digit.toNat ∧ digit.toNat ≤ 57 := by
  have isDigit : digit.isDigit = true :=
    Nat.isDigit_of_mem_toDigits (by decide) (by decide) member
  simp only [Char.isDigit, ge_iff_le, Bool.and_eq_true, decide_eq_true_eq,
    UInt32.le_iff_toNat_le] at isDigit
  exact isDigit

theorem toNat_digit
    {number : Nat}
    {digit : Char}
    (member : digit ∈ Nat.toDigits 10 number) :
    (UInt8.ofNat digit.toNat).toNat = digit.toNat := by
  have bounds := digit_bounds member
  have small : digit.toNat < 256 := by omega
  rw [UInt8.toNat_ofNat', Nat.mod_eq_of_lt small]

theorem zero_notMem_decimal (number : Nat) : 0 ∉ decimal number := by
  intro member
  obtain ⟨digit, listed, zero⟩ := List.mem_map.mp member
  have bounds := digit_bounds listed
  have value := congrArg UInt8.toNat zero
  rw [toNat_digit listed, UInt8.toNat_zero] at value
  omega

theorem digits_of_decimal (number : Nat) :
    (decimal number).map (fun byte => Char.ofNat byte.toNat) = Nat.toDigits 10 number := by
  rw [decimal, List.map_map]
  refine (List.map_congr_left fun digit member => ?_).trans (List.map_id _)
  change Char.ofNat (UInt8.ofNat digit.toNat).toNat = digit
  rw [toNat_digit member, Char.ofNat_toNat]

theorem decimal_injective : Function.Injective decimal := by
  intro left right equal
  have digits : Nat.toDigits 10 left = Nat.toDigits 10 right := by
    rw [← digits_of_decimal, equal, digits_of_decimal]
  rw [← Nat.ofDigitChars_ten_toDigits (n := left), digits, Nat.ofDigitChars_ten_toDigits]

/-- The loop that reads digits up to the first byte that is not a digit. -/
def readDigits : Nat -> Bytes -> Nat
  | value, [] => value
  | value, byte :: rest =>
      if 0x30 ≤ byte ∧ byte ≤ 0x39 then
        readDigits (value * 10 + (byte.toNat - 0x30)) rest
      else
        value

/-- The value of a loop never goes down. -/
theorem le_readDigits (value : Nat) (text : Bytes) : value ≤ readDigits value text := by
  induction text generalizing value with
  | nil => exact le_rfl
  | cons byte rest inductionHypothesis =>
      rw [readDigits]
      split
      · have later := inductionHypothesis (value * 10 + (byte.toNat - 0x30))
        omega
      · exact le_rfl

/-- More text never makes the value smaller. -/
theorem readDigits_le_append (value : Nat) (text more : Bytes) :
    readDigits value text ≤ readDigits value (text ++ more) := by
  induction text generalizing value with
  | nil => exact le_readDigits value more
  | cons byte rest inductionHypothesis =>
      rw [List.cons_append, readDigits, readDigits]
      split
      · exact inductionHypothesis _
      · exact le_rfl

/-- The loop stops at a byte that is not a digit. -/
theorem readDigits_of_not_digit
    {byte : UInt8}
    (other : ¬(0x30 ≤ byte ∧ byte ≤ 0x39))
    (value : Nat)
    (rest : Bytes) :
    readDigits value (byte :: rest) = value := by
  rw [readDigits, if_neg other]

/-- Induction over the digits: the loop computes the value of a numeral. -/
theorem readDigits_append
    {digits : List Char}
    (bounds : ∀ digit ∈ digits, 48 ≤ digit.toNat ∧ digit.toNat ≤ 57)
    (value : Nat)
    (rest : Bytes) :
    readDigits value (digits.map (fun digit => UInt8.ofNat digit.toNat) ++ rest) =
      readDigits (Nat.ofDigitChars 10 digits value) rest := by
  induction digits generalizing value with
  | nil => rfl
  | cons digit digits inductionHypothesis =>
      have bound := bounds digit List.mem_cons_self
      have small : digit.toNat < 256 := by omega
      have byteValue : (UInt8.ofNat digit.toNat).toNat = digit.toNat := by
        rw [UInt8.toNat_ofNat', Nat.mod_eq_of_lt small]
      have isDigit : 0x30 ≤ UInt8.ofNat digit.toNat ∧ UInt8.ofNat digit.toNat ≤ 0x39 := by
        rw [UInt8.le_iff_toNat_le, UInt8.le_iff_toNat_le, byteValue]
        exact bound
      rw [List.map_cons, List.cons_append, readDigits, if_pos isDigit, byteValue,
        inductionHypothesis fun digit member => bounds digit (List.mem_cons_of_mem _ member)]
      congr 1
      simp [Nat.ofDigitChars, Nat.mul_comm]

/-- The loop reads a numeral that is followed by something else. -/
theorem readDigits_decimal
    {byte : UInt8}
    (other : ¬(0x30 ≤ byte ∧ byte ≤ 0x39))
    (number : Nat)
    (rest : Bytes) :
    readDigits 0 (decimal number ++ byte :: rest) = number := by
  rw [decimal, readDigits_append (fun digit member => digit_bounds member),
    Nat.ofDigitChars_ten_toDigits, readDigits_of_not_digit other]

end Codec
