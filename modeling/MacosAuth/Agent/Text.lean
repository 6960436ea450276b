import MacosAuth.Agent.Messages
import MacosAuth.Codec.Trimming
import Mathlib.Data.List.Forall2

/-!
# Text handling of the agent

The agent works on characters, which may hold several scalars: a carriage return
and the line feed after it are one character. Only trimming and number parsing look
at the scalars themselves. Texts are lists of scalars here, and how they fall into
characters is a parameter with the few laws that matter for ASCII.

`hexDecode` leaves each pair of characters to a number parser that also takes a
sign. The main result says for which texts this makes a difference.
-/

namespace MacosAuth
namespace Agent

open Codec

/-! ## Characters -/

/-- Scalars below 128. -/
def IsAscii (scalar : Char) : Prop :=
  scalar.toNat < 128

/-- How a text falls into characters, each given by its scalars. -/
structure Segmentation where
  characters : List Char -> List (List Char)
  /-- Together the characters are the text. -/
  joined : ∀ text, (characters text).flatten = text
  /-- ASCII scalars stand alone, except for a carriage return before a line feed. -/
  ascii_character : ∀ text, ∀ character ∈ characters text,
    (∀ scalar ∈ character, IsAscii scalar) ->
      (∃ scalar, character = [scalar]) ∨ character = ['\r', '\n']
  /-- A carriage return and the line feed after it are not separated. -/
  lineEnd_together : ∀ text before after, characters text = before ++ ['\r'] :: after ->
    ∀ rest, after ≠ ['\n'] :: rest

/-- The characters of a text in which only CR LF combines. -/
def asciiCharacters : List Char -> List (List Char)
  | [] => []
  | '\r' :: '\n' :: rest => ['\r', '\n'] :: asciiCharacters rest
  | scalar :: rest => [scalar] :: asciiCharacters rest

/-! ## Trimming -/

/-- `CharacterSet.whitespacesAndNewlines`: the scalars of the categories Z, the ASCII
white space and the next line control. -/
def isWhitespaceOrNewline (scalar : Char) : Bool :=
  let code := scalar.toNat
  (0x9 ≤ code && code ≤ 0xd) || code == 0x20 || code == 0x85 || code == 0xa0 ||
    code == 0x1680 || (0x2000 ≤ code && code ≤ 0x200a) || code == 0x2028 ||
    code == 0x2029 || code == 0x202f || code == 0x205f || code == 0x3000

/-- `trimmingCharacters(in: .whitespacesAndNewlines)`. -/
def trimmingCharacters (text : List Char) : List Char :=
  trimBoth isWhitespaceOrNewline text

/-! ## Hexadecimal -/

/-- The digits `0` to `9`, `a` to `f` and `A` to `F`. -/
def IsHexDigit (scalar : Char) : Prop :=
  (48 ≤ scalar.toNat ∧ scalar.toNat ≤ 57) ∨ (97 ≤ scalar.toNat ∧ scalar.toNat ≤ 102) ∨
    (65 ≤ scalar.toNat ∧ scalar.toNat ≤ 70)

instance : DecidablePred IsHexDigit :=
  fun _ => inferInstanceAs (Decidable (_ ∨ _))

def hexDigitValue (digit : Char) : Option Nat :=
  if 48 ≤ digit.toNat ∧ digit.toNat ≤ 57 then some (digit.toNat - 48)
  else if 97 ≤ digit.toNat ∧ digit.toNat ≤ 102 then some (digit.toNat - 87)
  else if 65 ≤ digit.toNat ∧ digit.toNat ≤ 70 then some (digit.toNat - 55)
  else none

/-- The value of one or more digits. -/
def digitsValue (digits : List Char) : Option Nat :=
  if digits = [] then
    none
  else
    digits.foldlM (fun value digit => do
      let digitValue ← hexDigitValue digit
      return value * 16 + digitValue) 0

/-- `UInt8(_:radix:)` for radix 16: an optional sign, then digits whose value fits. -/
def parseByte : List Char -> Option UInt8
  | '-' :: digits => do
      let value ← digitsValue digits
      if value = 0 then some 0 else none
  | '+' :: digits => do
      let value ← digitsValue digits
      if value < 256 then some (UInt8.ofNat value) else none
  | digits => do
      let value ← digitsValue digits
      if value < 256 then some (UInt8.ofNat value) else none

/-- `String(format: "%02x", byte)` for every byte. -/
def hexEncode (bytes : Bytes) : List Char :=
  bytes.flatMap fun byte => [Nat.digitChar (byte.toNat / 16), Nat.digitChar (byte.toNat % 16)]

/-- The loop of `hexDecode`. -/
def decodePairs : List (List Char) -> Except AgentError Bytes
  | [] => .ok []
  -- not reached, since the number of characters is even
  | [final] => .error (.invalidHex (String.ofList final))
  | first :: second :: rest =>
      match parseByte (first ++ second) with
      | none => .error (.invalidHex (String.ofList (first ++ second)))
      | some byte => do
          let bytes ← decodePairs rest
          return byte :: bytes

namespace Segmentation

def hexDecode (segmentation : Segmentation) (text : List Char) : Except AgentError Bytes :=
  let characters := segmentation.characters (trimmingCharacters text)
  if characters.length % 2 = 0 then
    decodePairs characters
  else
    .error (.invalidHex "odd length")

/-! ## Lines -/

/-- `split(separator: "\n", omittingEmptySubsequences: false)`. -/
def lines (segmentation : Segmentation) (text : List Char) : List (List Char) :=
  ((segmentation.characters text).splitOn ['\n']).map List.flatten

/-- `hasPrefix("#")`. -/
def isComment (segmentation : Segmentation) (text : List Char) : Bool :=
  (segmentation.characters text).head? == some ['#']

/-- The text after `firstIndex(of: "=")`. -/
def afterEquals (segmentation : Segmentation) (text : List Char) : Option (List Char) :=
  let characters := segmentation.characters text
  if ['='] ∈ characters then
    some (characters.dropWhile (· ≠ ['='])).tail.flatten
  else
    none

/-! ## The characters of an ASCII text -/

/-- Characters of ASCII scalars that keep line ends together are those of their text. -/
theorem asciiCharacters_flatten
    {characters : List (List Char)}
    (single : ∀ character ∈ characters,
      (∃ scalar, character = [scalar]) ∨ character = ['\r', '\n'])
    (together : ∀ before after, characters = before ++ ['\r'] :: after ->
      ∀ rest, after ≠ ['\n'] :: rest) :
    asciiCharacters characters.flatten = characters := by
  induction characters with
  | nil => rfl
  | cons character rest inductionHypothesis =>
      have restCharacters : asciiCharacters rest.flatten = rest :=
        inductionHypothesis (fun other member => single other (List.mem_cons_of_mem _ member))
          fun before after split => together (character :: before) after (by simp [split])
      rcases single character (by simp) with ⟨scalar, rfl⟩ | rfl
      · have apart : ∀ scalars, scalar = '\r' -> rest.flatten ≠ '\n' :: scalars := by
          intro scalars isReturn starts
          cases rest with
          | nil => exact absurd starts (by simp)
          | cons next rest =>
              rcases single next (by simp) with ⟨nextScalar, rfl⟩ | rfl
              · obtain rfl : nextScalar = '\n' := by simpa using congrArg List.head? starts
                exact together [] _ (by simp [isReturn]) rest rfl
              · exact absurd (congrArg List.head? starts) (by simp)
        rw [List.flatten_cons, List.singleton_append]
        unfold asciiCharacters
        split
        · contradiction
        · rename_i scalars split
          obtain ⟨isReturn, starts⟩ := List.cons.inj split
          exact absurd starts (apart scalars isReturn)
        · rename_i split
          obtain ⟨rfl, rfl⟩ := List.cons.inj split
          rw [restCharacters]
      · simp only [List.flatten_cons, List.cons_append, List.nil_append, asciiCharacters,
          restCharacters]

/-- All segmentations agree on ASCII texts. -/
theorem characters_of_ascii
    (segmentation : Segmentation)
    {text : List Char}
    (ascii : ∀ scalar ∈ text, IsAscii scalar) :
    segmentation.characters text = asciiCharacters text := by
  have single : ∀ character ∈ segmentation.characters text,
      (∃ scalar, character = [scalar]) ∨ character = ['\r', '\n'] := by
    intro character member
    refine segmentation.ascii_character text character member fun scalar inCharacter => ?_
    have inText : scalar ∈ (segmentation.characters text).flatten :=
      List.mem_flatten_of_mem member inCharacter
    rw [segmentation.joined] at inText
    exact ascii scalar inText
  have whole := asciiCharacters_flatten single (segmentation.lineEnd_together text)
  rw [segmentation.joined] at whole
  exact whole.symm

/-- Without carriage returns every ASCII scalar is a character. -/
theorem asciiCharacters_of_not_mem
    {text : List Char}
    (noReturn : '\r' ∉ text) :
    asciiCharacters text = text.map fun scalar => [scalar] := by
  induction text with
  | nil => rfl
  | cons scalar rest inductionHypothesis =>
      obtain ⟨notHead, notRest⟩ := not_or.mp (mt List.mem_cons.mpr noReturn)
      unfold asciiCharacters
      split
      · contradiction
      · rename_i split
        exact absurd (List.cons.inj split).1.symm notHead
      · rename_i split
        obtain ⟨rfl, rfl⟩ := List.cons.inj split
        rw [inductionHypothesis notRest, List.map_cons]

end Segmentation

/-! ## Pairs of digits -/

/-- Two hexadecimal digits. -/
def HexPair (pair : Char × Char) : Prop :=
  IsHexDigit pair.1 ∧ IsHexDigit pair.2

/-- A sign in front of a single digit whose value fits. -/
def SignedPair (pair : Char × Char) : Prop :=
  (pair.1 = '+' ∧ IsHexDigit pair.2) ∨ pair = ('-', '0')

/-- The two characters of a pair. -/
def pairText (pair : Char × Char) : List Char :=
  [pair.1, pair.2]

theorem IsHexDigit.toNat_lt
    {digit : Char}
    (isDigit : IsHexDigit digit) :
    digit.toNat < 103 := by
  rcases isDigit with decimal | lower | upper <;> omega

theorem IsHexDigit.ne
    {digit other : Char}
    (isDigit : IsHexDigit digit)
    (noDigit : ¬IsHexDigit other) :
    digit ≠ other := by
  rintro rfl
  exact noDigit isDigit

theorem exists_hexDigitValue
    {digit : Char}
    (isDigit : IsHexDigit digit) :
    ∃ value, hexDigitValue digit = some value := by
  rcases isDigit with decimal | lower | upper
  · exact ⟨_, if_pos decimal⟩
  · exact ⟨_, by rw [hexDigitValue, if_neg (by omega), if_pos lower]⟩
  · exact ⟨_, by rw [hexDigitValue, if_neg (by omega), if_neg (by omega), if_pos upper]⟩

theorem isHexDigit_of_hexDigitValue
    {digit : Char}
    {value : Nat}
    (isValue : hexDigitValue digit = some value) :
    IsHexDigit digit := by
  unfold hexDigitValue at isValue
  split_ifs at isValue with decimal lower upper
  · exact .inl decimal
  · exact .inr (.inl lower)
  · exact .inr (.inr upper)

/-- The digit that is written for the value of each scalar up to `f`. -/
theorem lowerDigit_table : ∀ code < 103,
    (hexDigitValue (Char.ofNat code)).all (fun value =>
      decide (value < 16) && Nat.digitChar value == (Char.ofNat code).toLower) = true := by
  decide

theorem hexDigitValue_spec
    {digit : Char}
    {value : Nat}
    (isValue : hexDigitValue digit = some value) :
    value < 16 ∧ Nat.digitChar value = digit.toLower := by
  have found := lowerDigit_table digit.toNat (isHexDigit_of_hexDigitValue isValue).toNat_lt
  rw [Char.ofNat_toNat, isValue] at found
  simpa using found

theorem hexDigitValue_digitChar :
    ∀ value < 16, hexDigitValue (Nat.digitChar value) = some value := by
  decide

/-- Digits are read from the most significant one on. -/
theorem digitsValue_pair
    {high low : Char}
    {highValue lowValue : Nat}
    (isHigh : hexDigitValue high = some highValue)
    (isLow : hexDigitValue low = some lowValue) :
    digitsValue [high, low] = some (highValue * 16 + lowValue) := by
  simp [digitsValue, isHigh, isLow]

/-- Only digits have a value. -/
theorem isHexDigit_of_digitsValue
    {digits : List Char}
    {value : Nat}
    (isValue : digitsValue digits = some value) :
    ∀ digit ∈ digits, IsHexDigit digit := by
  have loop : ∀ (digits : List Char) (start result : Nat),
      digits.foldlM (fun value digit => do
        let digitValue ← hexDigitValue digit
        return value * 16 + digitValue) start = some result ->
      ∀ digit ∈ digits, IsHexDigit digit := by
    intro digits
    induction digits with
    | nil => exact fun _ _ _ digit member => absurd member (by simp)
    | cons head rest inductionHypothesis =>
        intro start result run digit member
        simp only [List.foldlM_cons, Option.bind_eq_bind, Option.bind_eq_some_iff] at run
        obtain ⟨next, ⟨headValue, isHead, -⟩, restRun⟩ := run
        rcases List.mem_cons.mp member with rfl | inRest
        · exact isHexDigit_of_hexDigitValue isHead
        · exact inductionHypothesis next result restRun digit inRest
  unfold digitsValue at isValue
  split_ifs at isValue
  exact loop digits 0 value isValue

/-- What the number parser accepts at most. -/
theorem parseByte_eq_some
    {text : List Char}
    {byte : UInt8}
    (parsed : parseByte text = some byte) :
    (∀ scalar ∈ text, IsHexDigit scalar) ∨
      ∃ sign digits, text = sign :: digits ∧ (∀ digit ∈ digits, IsHexDigit digit) ∧
        (sign = '+' ∨ (sign = '-' ∧ digitsValue digits = some 0)) := by
  unfold parseByte at parsed
  split at parsed
  all_goals
    simp only [Option.bind_eq_bind, Option.bind_eq_some_iff] at parsed
    obtain ⟨value, isValue, fits⟩ := parsed
  · split_ifs at fits with isZero
    subst isZero
    exact .inr ⟨_, _, rfl, isHexDigit_of_digitsValue isValue, .inr ⟨rfl, isValue⟩⟩
  · exact .inr ⟨_, _, rfl, isHexDigit_of_digitsValue isValue, .inl rfl⟩
  · exact .inl (isHexDigit_of_digitsValue isValue)

/-- A number without a sign whose value fits. -/
theorem parseByte_of_digitsValue
    {digits : List Char}
    {value : Nat}
    (isValue : digitsValue digits = some value)
    (fits : value < 256) :
    parseByte digits = some (UInt8.ofNat value) := by
  have noSign (sign : Char) (rest : List Char) (noDigit : ¬IsHexDigit sign) :
      digits ≠ sign :: rest := by
    rintro rfl
    exact noDigit (isHexDigit_of_digitsValue isValue sign (by simp))
  unfold parseByte
  split
  · exact absurd rfl (noSign '-' _ (by decide))
  · exact absurd rfl (noSign '+' _ (by decide))
  · simp [isValue, fits]

theorem eq_zero_of_hexDigitValue
    {digit : Char}
    (isZero : hexDigitValue digit = some 0) :
    digit = '0' := by
  apply Char.toNat_inj.mp
  change digit.toNat = 48
  unfold hexDigitValue at isZero
  split_ifs at isZero <;> simp only [Option.some.injEq] at isZero <;> omega

theorem hexOrSigned_of_parseByte
    {pair : Char × Char}
    {byte : UInt8}
    (parsed : parseByte (pairText pair) = some byte) :
    HexPair pair ∨ SignedPair pair := by
  obtain ⟨first, second⟩ := pair
  rcases parseByte_eq_some parsed with allDigits | ⟨sign, digits, split, allDigits, signed⟩
  · exact .inl ⟨allDigits first (by simp [pairText]), allDigits second (by simp [pairText])⟩
  · simp only [pairText, List.cons.injEq] at split
    obtain ⟨rfl, rfl⟩ := split
    right
    rcases signed with isPlus | ⟨rfl, isZero⟩
    · exact .inl ⟨isPlus, allDigits second (by simp)⟩
    · have secondZero : hexDigitValue second = some 0 := by
        simpa [digitsValue] using isZero
      rw [eq_zero_of_hexDigitValue secondZero]
      exact .inr rfl

/-- Two digits give the byte that they spell. -/
theorem parseByte_of_hexPair
    {pair : Char × Char}
    (isHex : HexPair pair) :
    ∃ byte, parseByte (pairText pair) = some byte ∧
      hexEncode [byte] = (pairText pair).map Char.toLower := by
  obtain ⟨first, second⟩ := pair
  obtain ⟨high, isHigh⟩ := exists_hexDigitValue isHex.1
  obtain ⟨low, isLow⟩ := exists_hexDigitValue isHex.2
  obtain ⟨highLt, highDigit⟩ := hexDigitValue_spec isHigh
  obtain ⟨lowLt, lowDigit⟩ := hexDigitValue_spec isLow
  have bytes : (UInt8.ofNat (high * 16 + low)).toNat = high * 16 + low := by
    rw [UInt8.toNat_ofNat']
    exact Nat.mod_eq_of_lt (by omega)
  refine ⟨UInt8.ofNat (high * 16 + low),
    parseByte_of_digitsValue (digitsValue_pair isHigh isLow) (by omega), ?_⟩
  have highPart : (high * 16 + low) / 16 = high := by omega
  have lowPart : (high * 16 + low) % 16 = low := by omega
  simp only [hexEncode, List.flatMap_cons, List.flatMap_nil, List.append_nil, bytes, pairText,
    List.map_cons, List.map_nil, highPart, lowPart, highDigit, lowDigit]

theorem parseByte_of_signedPair
    {pair : Char × Char}
    (isSigned : SignedPair pair) :
    ∃ byte, parseByte (pairText pair) = some byte := by
  obtain ⟨first, second⟩ := pair
  rcases isSigned with ⟨isPlus, isDigit⟩ | minusZero
  · obtain ⟨value, isValue⟩ := exists_hexDigitValue isDigit
    have small := (hexDigitValue_spec isValue).1
    refine ⟨UInt8.ofNat value, ?_⟩
    have fits : value < 256 := by omega
    simp only at isPlus
    simp [pairText, parseByte, isPlus, digitsValue, isValue, fits]
  · obtain ⟨rfl, rfl⟩ := Prod.mk.inj minusZero
    exact ⟨0, by decide⟩

theorem hexPair_or_signedPair_iff {pair : Char × Char} :
    HexPair pair ∨ SignedPair pair ↔ ∃ byte, parseByte (pairText pair) = some byte := by
  constructor
  · rintro (isHex | isSigned)
    · exact (parseByte_of_hexPair isHex).imp fun _ found => found.1
    · exact parseByte_of_signedPair isSigned
  · rintro ⟨byte, parsed⟩
    exact hexOrSigned_of_parseByte parsed

/-! ## Whole texts -/

/-- The text made of these pairs. -/
def pairsText (pairs : List (Char × Char)) : List Char :=
  pairs.flatMap pairText

@[simp] theorem pairsText_nil : pairsText [] = [] := rfl

@[simp] theorem pairsText_cons (pair : Char × Char) (pairs : List (Char × Char)) :
    pairsText (pair :: pairs) = pair.1 :: pair.2 :: pairsText pairs := rfl

theorem length_pairsText (pairs : List (Char × Char)) :
    (pairsText pairs).length = 2 * pairs.length := by
  induction pairs with
  | nil => rfl
  | cons pair pairs inductionHypothesis =>
      rw [pairsText_cons, List.length_cons, List.length_cons, inductionHypothesis,
        List.length_cons]
      omega

/-- The parser of a pair that consists of single scalars. -/
def ParsesTo (pair : Char × Char) (byte : UInt8) : Prop :=
  parseByte (pairText pair) = some byte

theorem isAscii_of_digit
    {scalar : Char}
    (digit : IsHexDigit scalar ∨ scalar = '+' ∨ scalar = '-') :
    IsAscii scalar := by
  rcases digit with isDigit | rfl | rfl
  · exact isDigit.toNat_lt.trans (by decide)
  · exact (by decide : ('+').toNat < 128)
  · exact (by decide : ('-').toNat < 128)

theorem digits_of_pairs
    {pairs : List (Char × Char)}
    (accepted : ∀ pair ∈ pairs, HexPair pair ∨ SignedPair pair) :
    ∀ scalar ∈ pairsText pairs, IsHexDigit scalar ∨ scalar = '+' ∨ scalar = '-' := by
  intro scalar member
  obtain ⟨pair, pairMember, inPair⟩ := List.mem_flatMap.mp member
  simp only [pairText, List.mem_cons, List.not_mem_nil, or_false] at inPair
  rcases accepted pair pairMember with isHex | ⟨isPlus, isDigit⟩ | rfl
  · rcases inPair with rfl | rfl
    · exact .inl isHex.1
    · exact .inl isHex.2
  · rcases inPair with rfl | rfl
    · exact .inr (.inl isPlus)
    · exact .inl isDigit
  · rcases inPair with rfl | rfl
    · exact .inr (.inr rfl)
    · exact .inl (by decide)

theorem exists_parsed_of_mem
    {pairs : List (Char × Char)}
    {bytes : Bytes}
    (parsed : List.Forall₂ ParsesTo pairs bytes)
    {pair : Char × Char}
    (member : pair ∈ pairs) :
    ∃ byte, parseByte (pairText pair) = some byte := by
  induction parsed with
  | nil => exact absurd member (by simp)
  | @cons head byte _ _ headParsed _ inductionHypothesis =>
      rcases List.mem_cons.mp member with rfl | inRest
      · exact ⟨byte, headParsed⟩
      · exact inductionHypothesis inRest

theorem exists_bytes_of_pairs
    {pairs : List (Char × Char)}
    (accepted : ∀ pair ∈ pairs, HexPair pair ∨ SignedPair pair) :
    ∃ bytes, List.Forall₂ ParsesTo pairs bytes := by
  induction pairs with
  | nil => exact ⟨[], .nil⟩
  | cons pair pairs inductionHypothesis =>
      obtain ⟨byte, parsed⟩ := hexPair_or_signedPair_iff.mp (accepted pair (by simp))
      obtain ⟨bytes, restParsed⟩ :=
        inductionHypothesis fun other member => accepted other (by simp [member])
      exact ⟨byte :: bytes, .cons parsed restParsed⟩

/-- The two digits of a byte. -/
def digitPair (byte : UInt8) : Char × Char :=
  (Nat.digitChar (byte.toNat / 16), Nat.digitChar (byte.toNat % 16))

theorem hexEncode_eq_pairsText (bytes : Bytes) :
    hexEncode bytes = pairsText (bytes.map digitPair) := by
  simp [hexEncode, pairsText, pairText, digitPair, List.flatMap_map]

theorem parsesTo_digitPair (byte : UInt8) : ParsesTo (digitPair byte) byte := by
  have bound := byte.toNat_lt
  have high := hexDigitValue_digitChar (byte.toNat / 16) (by omega)
  have low := hexDigitValue_digitChar (byte.toNat % 16) (by omega)
  have parsed := parseByte_of_digitsValue (digitsValue_pair high low) (by omega)
  have whole : byte.toNat / 16 * 16 + byte.toNat % 16 = byte.toNat := by omega
  rwa [whole, UInt8.ofNat_toNat] at parsed

theorem isWhitespaceOrNewline_of_digit
    {scalar : Char}
    (digit : IsHexDigit scalar ∨ scalar = '+' ∨ scalar = '-') :
    isWhitespaceOrNewline scalar = false := by
  rcases digit with isDigit | rfl | rfl
  · simp only [isWhitespaceOrNewline, Bool.or_eq_false_iff, Bool.and_eq_false_iff,
      decide_eq_false_iff_not, beq_eq_false_iff_ne, ne_eq]
    rcases isDigit with decimal | lower | upper <;> omega
  · decide
  · decide

theorem trimmingCharacters_of_digits
    {text : List Char}
    (digits : ∀ scalar ∈ text, IsHexDigit scalar ∨ scalar = '+' ∨ scalar = '-') :
    trimmingCharacters text = text :=
  trimBoth_eq_self fun scalar member => isWhitespaceOrNewline_of_digit (digits scalar member)

/-- A character that the parser takes as part of a number is a single scalar. -/
theorem Segmentation.exists_scalar
    (segmentation : Segmentation)
    {text character : List Char}
    (member : character ∈ segmentation.characters text)
    (digits : ∀ scalar ∈ character, IsHexDigit scalar ∨ scalar = '+' ∨ scalar = '-') :
    ∃ scalar, character = [scalar] := by
  have ascii : ∀ scalar ∈ character, IsAscii scalar := fun scalar inCharacter =>
    isAscii_of_digit (digits scalar inCharacter)
  rcases segmentation.ascii_character text character member ascii with single | rfl
  · exact single
  · rcases digits '\r' (by simp) with isDigit | isPlus | isMinus
    · exact absurd isDigit (by decide)
    · exact absurd isPlus (by decide)
    · exact absurd isMinus (by decide)

/-- What the loop returns, by induction over the characters two at a time. -/
theorem decodePairs_eq_ok
    (segmentation : Segmentation)
    {text : List Char}
    {characters : List (List Char)}
    {bytes : Bytes}
    (fromText : ∀ character ∈ characters, character ∈ segmentation.characters text)
    (decoded : decodePairs characters = .ok bytes) :
    ∃ pairs, characters.flatten = pairsText pairs ∧ List.Forall₂ ParsesTo pairs bytes := by
  induction characters using decodePairs.induct generalizing bytes with
  | case1 =>
      obtain rfl := Except.ok.inj decoded
      exact ⟨[], rfl, .nil⟩
  | case2 final => exact absurd decoded (by simp [decodePairs])
  | case3 first second rest rejected => 
      exact absurd decoded (by simp [decodePairs, rejected])
  | case4 first second rest byte parsed inductionHypothesis =>
      simp only [decodePairs, parsed, Protocol.bind_eq_ok, pure, Except.pure,
        Except.ok.injEq] at decoded
      obtain ⟨restBytes, restDecoded, rfl⟩ := decoded
      obtain ⟨pairs, restText, restParsed⟩ := inductionHypothesis
        (fun character member => fromText character (by simp [member])) restDecoded
      have allowed : ∀ scalar ∈ first ++ second,
          IsHexDigit scalar ∨ scalar = '+' ∨ scalar = '-' := by
        rcases parseByte_eq_some parsed with allDigits | ⟨sign, digits, split, allDigits, signed⟩
        · exact fun scalar member => .inl (allDigits scalar member)
        · rw [split]
          intro scalar member
          rcases List.mem_cons.mp member with rfl | inDigits
          · exact .inr (signed.imp id And.left)
          · exact .inl (allDigits scalar inDigits)
      obtain ⟨high, rfl⟩ := segmentation.exists_scalar (fromText first (by simp))
        fun scalar member => allowed scalar (by simp [member])
      obtain ⟨low, rfl⟩ := segmentation.exists_scalar (fromText second (by simp))
        fun scalar member => allowed scalar (by simp [member])
      exact ⟨(high, low) :: pairs, by simp [restText],
        .cons parsed restParsed⟩

/-- The loop on pairs of single scalars. -/
theorem decodePairs_pairsText
    {pairs : List (Char × Char)}
    {bytes : Bytes}
    (parsed : List.Forall₂ ParsesTo pairs bytes) :
    decodePairs ((pairsText pairs).map fun scalar => [scalar]) = .ok bytes := by
  induction parsed with
  | nil => rfl
  | @cons pair byte pairs bytes headParsed _ inductionHypothesis =>
      have head : parseByte ([pair.1] ++ [pair.2]) = some byte := headParsed
      simp only [pairsText_cons, List.map_cons, decodePairs, head, inductionHypothesis]
      rfl

namespace Segmentation

variable (segmentation : Segmentation)

/-- Scalars that occur in numbers are characters of their own. -/
theorem characters_of_digits
    {text : List Char}
    (digits : ∀ scalar ∈ text, IsHexDigit scalar ∨ scalar = '+' ∨ scalar = '-') :
    segmentation.characters text = text.map fun scalar => [scalar] := by
  have ascii : ∀ scalar ∈ text, IsAscii scalar := fun scalar member =>
    isAscii_of_digit (digits scalar member)
  have noReturn : '\r' ∉ text := fun member => by
    have returnDigit := digits '\r' member
    revert returnDigit
    decide
  rw [segmentation.characters_of_ascii ascii, asciiCharacters_of_not_mem noReturn]

/-- When `hexDecode` succeeds and with what result. -/
theorem hexDecode_eq_ok_iff
    {text : List Char}
    {bytes : Bytes} :
    segmentation.hexDecode text = .ok bytes ↔
      ∃ pairs, trimmingCharacters text = pairsText pairs ∧
        List.Forall₂ ParsesTo pairs bytes := by
  simp only [hexDecode]
  constructor
  · intro decoded
    split at decoded
    · obtain ⟨pairs, joined, parsed⟩ := decodePairs_eq_ok segmentation
        (fun _ member => member) decoded
      rw [segmentation.joined] at joined
      exact ⟨pairs, joined, parsed⟩
    · exact absurd decoded (by simp)
  · rintro ⟨pairs, isPairs, parsed⟩
    have digits : ∀ scalar ∈ pairsText pairs,
        IsHexDigit scalar ∨ scalar = '+' ∨ scalar = '-' :=
      digits_of_pairs fun pair member =>
        hexPair_or_signedPair_iff.mpr (exists_parsed_of_mem parsed member)
    rw [isPairs, segmentation.characters_of_digits digits, List.length_map,
      length_pairsText, if_pos (by omega)]
    exact decodePairs_pairsText parsed

/-- The text consists of an even number of characters that are hexadecimal digits. -/
def IsHexText (text : List Char) : Prop :=
  (segmentation.characters text).length % 2 = 0 ∧
    ∀ character ∈ segmentation.characters text, ∃ digit, character = [digit] ∧ IsHexDigit digit

/-- `hexDecode` accepts the text exactly if it is hexadecimal, and then encoding the
result gives the text back in lower case. -/
def HexExact (text : List Char) : Prop :=
  ((∃ bytes, segmentation.hexDecode text = .ok bytes) ↔
    segmentation.IsHexText (trimmingCharacters text)) ∧
  ∀ bytes, segmentation.hexDecode text = .ok bytes ->
    hexEncode bytes = (trimmingCharacters text).map Char.toLower

/-- A text of pairs with at least one sign among them. -/
def SignedHex (text : List Char) : Prop :=
  ∃ pairs, text = pairsText pairs ∧ (∀ pair ∈ pairs, HexPair pair ∨ SignedPair pair) ∧
    ∃ pair ∈ pairs, SignedPair pair

theorem exists_pairs_of_length
    {scalars : List Char}
    (isEven : scalars.length % 2 = 0) :
    ∃ pairs, scalars = pairsText pairs := by
  induction scalars using List.twoStepInduction with
  | nil => exact ⟨[], rfl⟩
  | singleton scalar => exact absurd isEven (by simp)
  | cons_cons first second rest inductionHypothesis _ =>
      rw [List.length_cons, List.length_cons] at isEven
      obtain ⟨pairs, rfl⟩ := inductionHypothesis (by omega)
      exact ⟨(first, second) :: pairs, rfl⟩

theorem isHexText_iff {text : List Char} :
    segmentation.IsHexText text ↔
      ∃ pairs, text = pairsText pairs ∧ ∀ pair ∈ pairs, HexPair pair := by
  constructor
  · rintro ⟨isEven, digits⟩
    have single : ∀ characters : List (List Char),
        (∀ character ∈ characters, ∃ digit, character = [digit] ∧ IsHexDigit digit) ->
          characters.flatten.length = characters.length ∧
            ∀ digit ∈ characters.flatten, IsHexDigit digit := by
      intro characters
      induction characters with
      | nil => simp
      | cons character rest inductionHypothesis =>
          intro all
          obtain ⟨digit, rfl, isDigit⟩ := all character (by simp)
          obtain ⟨restLength, restDigits⟩ :=
            inductionHypothesis fun other member => all other (by simp [member])
          exact ⟨by simp [restLength], by simpa [isDigit] using restDigits⟩
    obtain ⟨lengths, allDigits⟩ := single _ digits
    rw [segmentation.joined] at lengths allDigits
    obtain ⟨pairs, rfl⟩ := exists_pairs_of_length (lengths ▸ isEven)
    refine ⟨pairs, rfl, fun pair member => ⟨allDigits _ ?_, allDigits _ ?_⟩⟩
    · exact List.mem_flatMap.mpr ⟨pair, member, by simp [pairText]⟩
    · exact List.mem_flatMap.mpr ⟨pair, member, by simp [pairText]⟩
  · rintro ⟨pairs, rfl, hex⟩
    have digits := digits_of_pairs fun pair member => Or.inl (hex pair member)
    rw [IsHexText, segmentation.characters_of_digits digits, List.length_map, length_pairsText]
    refine ⟨by omega, fun character member => ?_⟩
    obtain ⟨digit, inText, rfl⟩ := List.mem_map.mp member
    obtain ⟨pair, pairMember, inPair⟩ := List.mem_flatMap.mp inText
    simp only [pairText, List.mem_cons, List.not_mem_nil, or_false] at inPair
    rcases inPair with rfl | rfl
    · exact ⟨_, rfl, (hex pair pairMember).1⟩
    · exact ⟨_, rfl, (hex pair pairMember).2⟩

theorem hexEncode_of_parsed
    {pairs : List (Char × Char)}
    {bytes : Bytes}
    (parsed : List.Forall₂ ParsesTo pairs bytes)
    (hex : ∀ pair ∈ pairs, HexPair pair) :
    hexEncode bytes = (pairsText pairs).map Char.toLower := by
  induction parsed with
  | nil => rfl
  | @cons pair byte pairs bytes headParsed _ inductionHypothesis =>
      obtain ⟨spelled, spelledParsed, encoded⟩ := parseByte_of_hexPair (hex pair (by simp))
      obtain rfl : spelled = byte := Option.some.inj (spelledParsed.symm.trans headParsed)
      have rest := inductionHypothesis fun other member => hex other (by simp [member])
      calc
        hexEncode (spelled :: bytes) = hexEncode [spelled] ++ hexEncode bytes := by
          simp [hexEncode]
        _ = (pairText pair).map Char.toLower ++ (pairsText pairs).map Char.toLower := by
          rw [encoded, rest]
        _ = (pairsText (pair :: pairs)).map Char.toLower := by
          simp [pairText]

/-- No pair of a hexadecimal text has a sign. -/
theorem not_signedPair_of_hexPairs
    {pairs hexPairs : List (Char × Char)}
    (same : pairsText pairs = pairsText hexPairs)
    (hex : ∀ pair ∈ hexPairs, HexPair pair) :
    ∀ pair ∈ pairs, ¬SignedPair pair := by
  intro pair member signed
  have inText : pair.1 ∈ pairsText hexPairs := by
    rw [← same]
    exact List.mem_flatMap.mpr ⟨pair, member, by simp [pairText]⟩
  obtain ⟨hexPair, hexMember, inPair⟩ := List.mem_flatMap.mp inText
  have isDigit : IsHexDigit pair.1 := by
    simp only [pairText, List.mem_cons, List.not_mem_nil, or_false] at inPair
    rcases inPair with first | second
    · rw [first]
      exact (hex hexPair hexMember).1
    · rw [second]
      exact (hex hexPair hexMember).2
  rcases signed with ⟨isPlus, -⟩ | rfl
  · rw [isPlus] at isDigit
    exact absurd isDigit (by decide)
  · exact absurd isDigit (by decide)

theorem hexExact_iff (text : List Char) :
    segmentation.HexExact text ↔ ¬SignedHex (trimmingCharacters text) := by
  constructor
  · rintro ⟨accepted, -⟩ ⟨pairs, isPairs, allAccepted, pair, member, signed⟩
    obtain ⟨bytes, parsed⟩ := exists_bytes_of_pairs allAccepted
    have decoded := segmentation.hexDecode_eq_ok_iff.mpr ⟨pairs, isPairs, parsed⟩
    obtain ⟨hexPairs, isHexPairs, hex⟩ :=
      segmentation.isHexText_iff.mp (accepted.mp ⟨bytes, decoded⟩)
    exact not_signedPair_of_hexPairs (isPairs.symm.trans isHexPairs) hex pair member signed
  · intro unsigned
    have decodedHex : ∀ bytes, segmentation.hexDecode text = .ok bytes ->
        ∃ pairs, trimmingCharacters text = pairsText pairs ∧
          (∀ pair ∈ pairs, HexPair pair) ∧ List.Forall₂ ParsesTo pairs bytes := by
      intro bytes decoded
      obtain ⟨pairs, isPairs, parsed⟩ := segmentation.hexDecode_eq_ok_iff.mp decoded
      have accepted : ∀ pair ∈ pairs, HexPair pair ∨ SignedPair pair := fun pair member =>
        hexPair_or_signedPair_iff.mpr (exists_parsed_of_mem parsed member)
      refine ⟨pairs, isPairs, fun pair member => ?_, parsed⟩
      rcases accepted pair member with isHex | isSigned
      · exact isHex
      · exact absurd ⟨pairs, isPairs, accepted, pair, member, isSigned⟩ unsigned
    refine ⟨⟨?_, ?_⟩, ?_⟩
    · rintro ⟨bytes, decoded⟩
      obtain ⟨pairs, isPairs, hex, -⟩ := decodedHex bytes decoded
      exact segmentation.isHexText_iff.mpr ⟨pairs, isPairs, hex⟩
    · intro isHexText
      obtain ⟨pairs, isPairs, hex⟩ := segmentation.isHexText_iff.mp isHexText
      obtain ⟨bytes, parsed⟩ := exists_bytes_of_pairs fun pair member => .inl (hex pair member)
      exact ⟨bytes, segmentation.hexDecode_eq_ok_iff.mpr ⟨pairs, isPairs, parsed⟩⟩
    · intro bytes decoded
      obtain ⟨pairs, isPairs, hex, parsed⟩ := decodedHex bytes decoded
      rw [isPairs]
      exact hexEncode_of_parsed parsed hex

/-- Every byte array is decoded from its encoding. -/
theorem hexDecode_encoded (bytes : Bytes) :
    segmentation.hexDecode (hexEncode bytes) = .ok bytes := by
  rw [hexEncode_eq_pairsText, hexDecode_eq_ok_iff, trimmingCharacters_of_digits]
  · refine ⟨_, rfl, ?_⟩
    induction bytes with
    | nil => exact .nil
    | cons byte bytes inductionHypothesis =>
        exact .cons (parsesTo_digitPair byte) inductionHypothesis
  · intro scalar member
    refine digits_of_pairs (fun pair pairMember => ?_) scalar member
    obtain ⟨byte, -, rfl⟩ := List.mem_map.mp pairMember
    exact hexPair_or_signedPair_iff.mpr ⟨byte, parsesTo_digitPair byte⟩

/-- `hexDecode` accepts exactly hexadecimal texts, as long as no pair has a sign. -/
theorem hexDecode_exact :
    (∀ text, segmentation.HexExact text ↔ ¬SignedHex (trimmingCharacters text)) ∧
      ∀ bytes, segmentation.hexDecode (hexEncode bytes) = .ok bytes :=
  ⟨segmentation.hexExact_iff, segmentation.hexDecode_encoded⟩

end Segmentation

/-! ## A signed pair -/

theorem flatten_asciiCharacters (text : List Char) : (asciiCharacters text).flatten = text := by
  induction text using asciiCharacters.induct with
  | case1 => rfl
  | case2 rest inductionHypothesis => simp [asciiCharacters, inductionHypothesis]
  | case3 scalar rest noLineEnd inductionHypothesis =>
      rw [asciiCharacters, List.flatten_cons, inductionHypothesis, List.singleton_append]
      exact noLineEnd

theorem mem_asciiCharacters
    {text character : List Char}
    (member : character ∈ asciiCharacters text) :
    (∃ scalar, character = [scalar]) ∨ character = ['\r', '\n'] := by
  induction text using asciiCharacters.induct with
  | case1 => exact absurd member (by simp [asciiCharacters])
  | case2 rest inductionHypothesis =>
      rcases List.mem_cons.mp member with rfl | inRest
      · exact .inr rfl
      · exact inductionHypothesis inRest
  | case3 scalar rest noLineEnd inductionHypothesis =>
      rw [asciiCharacters] at member
      · rcases List.mem_cons.mp member with rfl | inRest
        · exact .inl ⟨scalar, rfl⟩
        · exact inductionHypothesis inRest
      · exact noLineEnd

theorem asciiCharacters_together
    {text : List Char}
    {before after : List (List Char)}
    (split : asciiCharacters text = before ++ ['\r'] :: after)
    (rest : List (List Char)) :
    after ≠ ['\n'] :: rest := by
  induction text using asciiCharacters.induct generalizing before with
  | case1 => exact absurd split (by simp [asciiCharacters])
  | case2 scalars inductionHypothesis =>
      rw [asciiCharacters] at split
      cases before with
      | nil => exact absurd split (by simp)
      | cons first before => exact inductionHypothesis (List.cons.inj split).2
  | case3 scalar scalars noLineEnd inductionHypothesis =>
      rw [asciiCharacters.eq_3 _ _ noLineEnd] at split
      cases before with
      | nil =>
          obtain ⟨isReturn, tail⟩ := List.cons.inj split
          rintro rfl
          have scalarsSplit := congrArg List.flatten tail
          rw [flatten_asciiCharacters] at scalarsSplit
          exact noLineEnd rest.flatten (by simpa using isReturn) (by simpa using scalarsSplit)
      | cons first before => exact inductionHypothesis (List.cons.inj split).2

/-- A segmentation in which nothing but CR LF combines. -/
def plainSegmentation : Segmentation where
  characters := asciiCharacters
  joined := flatten_asciiCharacters
  ascii_character := fun _ _ member _ => mem_asciiCharacters member
  lineEnd_together := by
    intro text before after split rest starts
    exact asciiCharacters_together split rest starts

/-- The text `+f` is decoded although it is not hexadecimal. -/
theorem hexDecode_signed :
    plainSegmentation.hexDecode "+f".toList = .ok [15] ∧
      ¬plainSegmentation.HexExact "+f".toList := by
  refine ⟨rfl, ?_⟩
  rw [Segmentation.hexExact_iff, not_not]
  refine ⟨[('+', 'f')], rfl, fun pair member => .inr (.inl ?_), ('+', 'f'), by simp,
    .inl ⟨rfl, by decide⟩⟩
  obtain rfl := List.mem_singleton.mp member
  exact ⟨rfl, by decide⟩

end Agent
end MacosAuth
