import MacosAuth.Protocol.Canonical
import Mathlib.Data.List.Infix

/-!
# Text handling of the helper

The operations on strings that the helper takes from its standard library, on
lists of characters, and the two small text formats that it reads: lines with an
optional `name=` in front of a value, and the expiry line of a replay marker.
-/

namespace MacosAuth
namespace Helper

open Codec
open Protocol (utf8)

/-- The Unicode property `White_Space`. -/
def isWhitespace (char : Char) : Bool :=
  let code := char.toNat
  (0x9 ≤ code && code ≤ 0xd) || code == 0x20 || code == 0x85 || code == 0xa0 ||
    code == 0x1680 || (0x2000 ≤ code && code ≤ 0x200a) || code == 0x2028 ||
    code == 0x2029 || code == 0x202f || code == 0x205f || code == 0x3000

def trim (text : List Char) : List Char :=
  ((text.dropWhile isWhitespace).reverse.dropWhile isWhitespace).reverse

/-- The lines of a text that was split at line feeds. A carriage return belongs to
the line feed after it; the last line ending is optional. -/
def endLines : List (List Char) -> List (List Char)
  | [] => []
  | [final] => if final = [] then [] else [final]
  | line :: rest =>
      (if line.getLast? = some '\r' then line.dropLast else line) :: endLines rest

/-- `str::lines`. -/
def lines (text : List Char) : List (List Char) :=
  endLines (text.splitOn '\n')

/-- Decoding of `read_to_string`. -/
def decodeUtf8 (bytes : Bytes) : Option String :=
  String.fromUTF8? ⟨bytes.toArray⟩

/-- `str::parse::<u64>`. -/
def parseU64 (text : List Char) : Option UInt64 :=
  let digits := match text with
    | '+' :: rest => rest
    | _ => text
  if digits = [] ∨ digits.all Char.isDigit = false then
    none
  else if Nat.ofDigitChars 10 digits 0 < UInt64.size then
    some (UInt64.ofNat (Nat.ofDigitChars 10 digits 0))
  else
    none

def parseExpiresAtMs (contents : String) : Option UInt64 := do
  let line ← (lines contents.toList).head?
  let value ← "expires_at_ms=".toList.isPrefixOf? (trim line)
  parseU64 value

theorem decodeUtf8_utf8 (text : String) : decodeUtf8 (utf8 text) = some text := by
  have bytes : (⟨(utf8 text).toArray⟩ : ByteArray) = text.toByteArray := by
    simp [utf8]
  simp only [decodeUtf8, bytes, String.fromUTF8?]
  rw [dif_pos text.isValidUTF8]
  rfl

/-- Only the encoding of a text decodes to it. -/
theorem utf8_of_decodeUtf8
    {bytes : Bytes}
    {text : String}
    (decoded : decodeUtf8 bytes = some text) :
    utf8 text = bytes := by
  unfold decodeUtf8 String.fromUTF8? at decoded
  split at decoded
  · obtain rfl := Option.some.inj decoded
    simp [utf8, String.fromUTF8]
  · cases decoded

theorem isDigit_of_mem_digits
    {number : Nat}
    {char : Char}
    (member : char ∈ Nat.toDigits 10 number) :
    char.isDigit = true :=
  Nat.isDigit_of_mem_toDigits (by decide) (by decide) member

theorem parseU64_digits (number : UInt64) :
    parseU64 (Nat.toDigits 10 number.toNat) = some number := by
  have digits (char : Char) (member : char ∈ Nat.toDigits 10 number.toNat) :=
    isDigit_of_mem_digits member
  have unsigned : (match Nat.toDigits 10 number.toNat with
      | '+' :: rest => rest
      | _ => Nat.toDigits 10 number.toNat) = Nat.toDigits 10 number.toNat := by
    split
    · rename_i rest split
      exact absurd (digits '+' (by simp [split])) (by decide)
    · rfl
  have bound : number.toNat < UInt64.size := number.toNat_lt
  have allDigits : (Nat.toDigits 10 number.toNat).all Char.isDigit = true :=
    List.all_eq_true.mpr digits
  simp only [parseU64, unsigned, Nat.ofDigitChars_ten_toDigits, bound, if_true, allDigits,
    Nat.toDigits_ne_nil, false_or, Bool.true_eq_false, if_false, UInt64.ofNat_toNat]

theorem isWhitespace_of_isDigit
    {char : Char}
    (digit : char.isDigit = true) :
    isWhitespace char = false := by
  have bounds : 48 ≤ char.toNat ∧ char.toNat ≤ 57 := by
    simp only [Char.isDigit, ge_iff_le, Bool.and_eq_true, decide_eq_true_eq,
      UInt32.le_iff_toNat_le] at digit
    exact digit
  simp only [isWhitespace, Bool.or_eq_false_iff, Bool.and_eq_false_iff, decide_eq_false_iff_not,
    beq_eq_false_iff_ne, ne_eq]
  omega

/-- A text that neither starts nor ends with white space is not trimmed. -/
theorem trim_eq_self
    {first last : Char}
    {middle : List Char}
    (firstBlack : isWhitespace first = false)
    (lastBlack : isWhitespace last = false) :
    trim (first :: (middle ++ [last])) = first :: (middle ++ [last]) := by
  simp [trim, firstBlack, lastBlack]

/-! ## The line of a replay marker -/

/-- The pieces that `writeln!` writes to a marker, one after the other. -/
def markerPieces (expiresAtMs : UInt64) : List String :=
  ["expires_at_ms=", expiresAtMs.toNat.repr, "\n"]

/-- What a marker contains after some of its pieces. -/
def MarkerText (expiresAtMs : UInt64) (contents : Bytes) : Prop :=
  ∃ count, contents = ((markerPieces expiresAtMs).take count).flatMap utf8

theorem utf8_append (left right : String) : utf8 (left ++ right) = utf8 left ++ utf8 right := by
  simp [utf8]

/-- A complete line yields the expiry. -/
theorem parseExpiresAtMs_line
    (expiresAtMs : UInt64)
    {text : String}
    (firstLine : (lines text.toList).head? =
      some ("expires_at_ms=".toList ++ Nat.toDigits 10 expiresAtMs.toNat)) :
    parseExpiresAtMs text = some expiresAtMs := by
  obtain ⟨digits, last, split⟩ :
      ∃ digits last, Nat.toDigits 10 expiresAtMs.toNat = digits ++ [last] := by
    rcases List.eq_nil_or_concat (Nat.toDigits 10 expiresAtMs.toNat) with
      empty | ⟨digits, last, split⟩
    · exact absurd empty Nat.toDigits_ne_nil
    · exact ⟨digits, last, by simpa using split⟩
  have lastDigit : last.isDigit = true := isDigit_of_mem_digits (by rw [split]; simp)
  have untrimmed : trim ("expires_at_ms=".toList ++ Nat.toDigits 10 expiresAtMs.toNat) =
      "expires_at_ms=".toList ++ Nat.toDigits 10 expiresAtMs.toNat := by
    have shape : "expires_at_ms=".toList ++ Nat.toDigits 10 expiresAtMs.toNat =
        'e' :: ("xpires_at_ms=".toList ++ digits ++ [last]) := by
      simp [split]
    rw [shape]
    exact trim_eq_self (by decide) (isWhitespace_of_isDigit lastDigit)
  have stripped : "expires_at_ms=".toList.isPrefixOf?
      ("expires_at_ms=".toList ++ Nat.toDigits 10 expiresAtMs.toNat) =
        some (Nat.toDigits 10 expiresAtMs.toNat) := by
    simp [List.isPrefixOf?]
  simp only [parseExpiresAtMs, firstLine, untrimmed, stripped, Option.bind_eq_bind,
    Option.bind_some, parseU64_digits]

/-- Line endings do not occur inside a marker line. -/
theorem not_mem_expiryLine
    {char : Char}
    (outside : char ∉ "expires_at_ms=".toList)
    (noDigit : char.isDigit = false)
    (number : Nat) :
    char ∉ "expires_at_ms=".toList ++ Nat.toDigits 10 number := by
  rw [List.mem_append]
  rintro (inPrefix | inDigits)
  · exact outside inPrefix
  · rw [isDigit_of_mem_digits inDigits] at noDigit
    exact absurd noDigit (by simp)

/-- The number of a marker is read with and without the end of the line. -/
theorem parseExpiresAtMs_number (expiresAtMs : UInt64) :
    parseExpiresAtMs ("expires_at_ms=" ++ expiresAtMs.toNat.repr) = some expiresAtMs ∧
      parseExpiresAtMs ("expires_at_ms=" ++ expiresAtMs.toNat.repr ++ "\n") =
        some expiresAtMs := by
  have oneLine : '\n' ∉ "expires_at_ms=".toList ++ Nat.toDigits 10 expiresAtMs.toNat :=
    not_mem_expiryLine (by decide) (by decide) _
  constructor
  · refine parseExpiresAtMs_line expiresAtMs ?_
    rw [String.toList_append, Nat.toList_repr, lines, List.splitOn_eq_singleton oneLine]
    simp [endLines]
  · have noReturn : ("expires_at_ms=".toList ++
        Nat.toDigits 10 expiresAtMs.toNat).getLast? ≠ some '\r' := fun last =>
      not_mem_expiryLine (by decide) (by decide) expiresAtMs.toNat (List.mem_of_getLast? last)
    refine parseExpiresAtMs_line expiresAtMs ?_
    rw [String.toList_append, String.toList_append, Nat.toList_repr, lines,
      show "\n".toList = ['\n'] from rfl, List.splitOn_append_cons_self_of_not_mem oneLine]
    simp only [List.splitOn_nil, endLines, if_neg noReturn, List.head?_cons]

/-- The text of a marker after some of its pieces. -/
theorem flatMap_take_markerPieces (expiresAtMs : UInt64) (count : Nat) :
    ((markerPieces expiresAtMs).take count).flatMap utf8 =
      utf8 (String.join ((markerPieces expiresAtMs).take count)) := by
  match count with
  | 0 => rfl
  | 1 => simp [markerPieces, String.join]
  | 2 => simp [markerPieces, String.join, utf8_append]
  | count + 3 => simp [markerPieces, String.join, utf8_append]

/-- Whatever has been written of a marker, its expiry is not read as another time. -/
theorem parseExpiresAtMs_markerText
    {expiresAtMs expiry : UInt64}
    {contents : Bytes}
    {text : String}
    (written : MarkerText expiresAtMs contents)
    (decoded : decodeUtf8 contents = some text)
    (parsed : parseExpiresAtMs text = some expiry) :
    expiry = expiresAtMs := by
  obtain ⟨count, rfl⟩ := written
  rw [flatMap_take_markerPieces, decodeUtf8_utf8] at decoded
  obtain rfl := Option.some.inj decoded
  match count with
  | 0 =>
      have unparsed : parseExpiresAtMs "" = none := by decide
      exact absurd (unparsed.symm.trans parsed) (by simp)
  | 1 =>
      have unparsed : parseExpiresAtMs "expires_at_ms=" = none := by decide
      exact absurd (unparsed.symm.trans (by simpa [markerPieces, String.join] using parsed))
        (by simp)
  | 2 =>
      have number := (parseExpiresAtMs_number expiresAtMs).1
      have read : parseExpiresAtMs ("expires_at_ms=" ++ expiresAtMs.toNat.repr) = some expiry := by
        simpa [markerPieces, String.join] using parsed
      exact Option.some.inj (read.symm.trans number)
  | count + 3 =>
      have number := (parseExpiresAtMs_number expiresAtMs).2
      have read : parseExpiresAtMs ("expires_at_ms=" ++ expiresAtMs.toNat.repr ++ "\n") =
          some expiry := by
        simpa [markerPieces, String.join] using parsed
      exact Option.some.inj (read.symm.trans number)

/-- No character takes more than four bytes. -/
theorem length_utf8_le (text : String) : (utf8 text).length ≤ 4 * text.toList.length := by
  have bound (chars : List Char) :
      (utf8 (String.ofList chars)).length ≤ 4 * chars.length := by
    induction chars with
    | nil => simp [utf8]
    | cons char rest inductionHypothesis =>
        have oneChar := Char.utf8Size_le_four char
        have split : utf8 (String.ofList (char :: rest)) =
            utf8 (String.ofList [char]) ++ utf8 (String.ofList rest) := by
          rw [← utf8_append, ← String.ofList_append, List.singleton_append]
        have single : (utf8 (String.ofList [char])).length = char.utf8Size := by
          simp [utf8, List.utf8Encode]
        rw [split, List.length_append, single, List.length_cons]
        omega
  simpa using bound text.toList

/-- A marker fits into one read of the cleanup. -/
theorem MarkerText.length_le
    {expiresAtMs : UInt64}
    {contents : Bytes}
    (written : MarkerText expiresAtMs contents) :
    contents.length ≤ 128 := by
  obtain ⟨count, rfl⟩ := written
  have digits : (Nat.toDigits 10 expiresAtMs.toNat).length ≤ 20 := by
    rw [Nat.length_toDigits_le_iff (by decide) (by decide)]
    have bound := expiresAtMs.toNat_lt
    omega
  have digitBytes := length_utf8_le expiresAtMs.toNat.repr
  rw [Nat.toList_repr] at digitBytes
  have whole : ((markerPieces expiresAtMs).flatMap utf8).length ≤ 128 := by
    have nameBytes : (utf8 "expires_at_ms=").length = 14 := by decide
    have lineEnd : (utf8 "\n").length = 1 := by decide
    simp only [markerPieces, List.flatMap_cons, List.flatMap_nil, List.length_append,
      List.length_nil]
    omega
  exact ((List.take_prefix count _).flatMap utf8).length_le.trans whole

/-- Markers grow at their end only. -/
theorem MarkerText.prefix_or_prefix
    {expiresAtMs : UInt64}
    {left right : Bytes}
    (leftWritten : MarkerText expiresAtMs left)
    (rightWritten : MarkerText expiresAtMs right) :
    left <+: right ∨ right <+: left := by
  obtain ⟨leftCount, rfl⟩ := leftWritten
  obtain ⟨rightCount, rfl⟩ := rightWritten
  rcases Nat.le_total leftCount rightCount with fewer | more
  · exact .inl ((List.take_prefix_take_left fewer).flatMap utf8)
  · exact .inr ((List.take_prefix_take_left more).flatMap utf8)
end Helper
end MacosAuth
