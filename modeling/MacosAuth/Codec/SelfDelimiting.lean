import Mathlib.Data.List.Basic
import Mathlib.Data.List.Induction
import Mathlib.Tactic.Ring

/-!
# Self-delimiting byte encodings

An encoding is self-delimiting when the encoded value and the bytes after it can
both be recovered from their concatenation. Such encodings are injective, none of
their code words is a proper prefix of another, and they stay so under
concatenation. The module provides the three building blocks of hand-written
binary formats: fixed-width big-endian integers, length-prefixed byte strings and
optional values with a presence byte.
-/

namespace Codec

/-- Byte strings. -/
abbrev Bytes := List UInt8

/-- On the values of the domain, the encoded value and the rest of the input are
determined by their concatenation. -/
def SelfDelimiting (domain : α -> Prop) (encode : α -> Bytes) : Prop :=
  ∀ left right, domain left -> domain right ->
    ∀ leftRest rightRest,
      encode left ++ leftRest = encode right ++ rightRest ->
        left = right ∧ leftRest = rightRest

namespace SelfDelimiting

/-- An injective encoding of one fixed width is self-delimiting. -/
theorem of_fixedWidth
    {domain : α -> Prop}
    {encode : α -> Bytes}
    (width : Nat)
    (length_eq : ∀ value, domain value -> (encode value).length = width)
    (injective : ∀ left right, domain left -> domain right ->
      encode left = encode right -> left = right) :
    SelfDelimiting domain encode := by
  intro left right leftDomain rightDomain leftRest rightRest equal
  have lengths : (encode left).length = (encode right).length := by
    rw [length_eq left leftDomain, length_eq right rightDomain]
  obtain ⟨codes, rests⟩ := List.append_inj equal lengths
  exact ⟨injective left right leftDomain rightDomain codes, rests⟩

/-- Encode through an injective view of the value. -/
theorem comap
    {domain : β -> Prop}
    {encode : β -> Bytes}
    (delimiting : SelfDelimiting domain encode)
    (view : α -> β)
    (injective : Function.Injective view) :
    SelfDelimiting (fun value => domain (view value)) fun value => encode (view value) := by
  intro left right leftDomain rightDomain leftRest rightRest equal
  obtain ⟨views, rests⟩ :=
    delimiting _ _ leftDomain rightDomain leftRest rightRest equal
  exact ⟨injective views, rests⟩

end SelfDelimiting

/-! ## Big-endian integers -/

/-- The `width` low-order bytes of a number, most significant byte first. -/
def bigEndian : Nat -> Nat -> Bytes
  | 0, _ => []
  | width + 1, value => bigEndian width (value / 256) ++ [UInt8.ofNat value]

@[simp] theorem length_bigEndian (width value : Nat) :
    (bigEndian width value).length = width := by
  induction width generalizing value with
  | zero => rfl
  | succ width inductionHypothesis => simp [bigEndian, inductionHypothesis]

/-- Numbers below `256 ^ width` are determined by their bytes. -/
theorem bigEndian_injective
    {width left right : Nat}
    (leftBound : left < 256 ^ width)
    (rightBound : right < 256 ^ width)
    (equal : bigEndian width left = bigEndian width right) :
    left = right := by
  induction width generalizing left right with
  | zero => simp at leftBound rightBound; omega
  | succ width inductionHypothesis =>
      obtain ⟨high, low⟩ := List.append_inj' equal rfl
      have quotients : left / 256 = right / 256 := by
        apply inductionHypothesis _ _ high
        · rw [pow_succ] at leftBound; omega
        · rw [pow_succ] at rightBound; omega
      have remainders : left % 256 = right % 256 := by
        have values := congrArg UInt8.toNat (List.singleton_inj.mp low)
        simpa using values
      omega

/-- The value of a big-endian number. -/
def fromBigEndian (bytes : Bytes) : Nat :=
  bytes.foldl (fun value byte => value * 256 + byte.toNat) 0

theorem fromBigEndian_concat (bytes : Bytes) (byte : UInt8) :
    fromBigEndian (bytes ++ [byte]) = fromBigEndian bytes * 256 + byte.toNat := by
  simp [fromBigEndian]

/-- Bytes are the big-endian form of their value. -/
theorem bigEndian_fromBigEndian (bytes : Bytes) :
    bigEndian bytes.length (fromBigEndian bytes) = bytes := by
  induction bytes using List.reverseRecOn with
  | nil => rfl
  | append_singleton bytes byte inductionHypothesis =>
      have bound := byte.toNat_lt
      have high : (fromBigEndian bytes * 256 + byte.toNat) / 256 = fromBigEndian bytes := by
        omega
      have low : UInt8.ofNat (fromBigEndian bytes * 256 + byte.toNat) = byte := by
        apply UInt8.toNat_inj.mp
        simp only [UInt8.toNat_ofNat']
        omega
      rw [List.length_append, List.length_singleton, bigEndian, fromBigEndian_concat, high,
        inductionHypothesis, low]

theorem selfDelimiting_bigEndian (width : Nat) :
    SelfDelimiting (fun value => value < 256 ^ width) (bigEndian width) :=
  .of_fixedWidth width (fun value _ => length_bigEndian width value)
    fun _ _ leftBound rightBound => bigEndian_injective leftBound rightBound

/-! ## Length-prefixed byte strings -/

/-- A byte string after its length in `width` bytes. -/
def lengthPrefixed (width : Nat) (value : Bytes) : Bytes :=
  bigEndian width value.length ++ value

@[simp] theorem length_lengthPrefixed (width : Nat) (value : Bytes) :
    (lengthPrefixed width value).length = width + value.length := by
  simp [lengthPrefixed]

theorem selfDelimiting_lengthPrefixed (width : Nat) :
    SelfDelimiting (fun value => value.length < 256 ^ width)
      (lengthPrefixed width) := by
  intro left right leftBound rightBound leftRest rightRest equal
  simp only [lengthPrefixed, List.append_assoc] at equal
  obtain ⟨lengths, bodies⟩ :=
    selfDelimiting_bigEndian width _ _ leftBound rightBound _ _ equal
  exact List.append_inj bodies lengths

/-! ## Terminated byte strings -/

/-- A byte string before a byte that ends it. -/
def terminated (terminator : UInt8) (value : Bytes) : Bytes :=
  value ++ [terminator]

theorem selfDelimiting_terminated (terminator : UInt8) :
    SelfDelimiting (fun value => terminator ∉ value) (terminated terminator) := by
  intro left right leftFree rightFree leftRest rightRest equal
  simp only [terminated, List.append_assoc, List.singleton_append] at equal
  induction left generalizing right with
  | nil =>
      cases right with
      | nil => exact ⟨rfl, (List.cons.inj equal).2⟩
      | cons byte rest =>
          obtain ⟨rfl, _⟩ := List.cons.inj equal
          exact absurd (List.mem_cons_self ..) rightFree
  | cons byte rest inductionHypothesis =>
      cases right with
      | nil =>
          obtain ⟨rfl, _⟩ := List.cons.inj equal
          exact absurd (List.mem_cons_self ..) leftFree
      | cons other others =>
          obtain ⟨rfl, tails⟩ := List.cons.inj equal
          obtain ⟨values, rests⟩ := inductionHypothesis others
            (fun member => leftFree (List.mem_cons_of_mem _ member))
            (fun member => rightFree (List.mem_cons_of_mem _ member)) tails
          exact ⟨congrArg (byte :: ·) values, rests⟩

/-- Encode two values one after the other. -/
theorem SelfDelimiting.pair
    {leftDomain : α -> Prop}
    {rightDomain : β -> Prop}
    {encodeLeft : α -> Bytes}
    {encodeRight : β -> Bytes}
    (leftDelimiting : SelfDelimiting leftDomain encodeLeft)
    (rightDelimiting : SelfDelimiting rightDomain encodeRight) :
    SelfDelimiting (fun value : α × β => leftDomain value.1 ∧ rightDomain value.2)
      fun value => encodeLeft value.1 ++ encodeRight value.2 := by
  rintro ⟨left, leftNext⟩ ⟨right, rightNext⟩ ⟨inLeft, inLeftNext⟩ ⟨inRight, inRightNext⟩
    leftRest rightRest equal
  simp only [List.append_assoc] at equal
  obtain ⟨rfl, remaining⟩ := leftDelimiting _ _ inLeft inRight _ _ equal
  obtain ⟨rfl, rests⟩ := rightDelimiting _ _ inLeftNext inRightNext _ _ remaining
  exact ⟨rfl, rests⟩

/-! ## Optional values -/

/-- Absence is the byte zero, presence the byte one followed by the value. -/
def withPresence (encode : α -> Bytes) : Option α -> Bytes
  | none => [0]
  | some value => 1 :: encode value

/-- The domain of an optional value. -/
def OptionalDomain (domain : α -> Prop) (value : Option α) : Prop :=
  ∀ present ∈ value, domain present

theorem selfDelimiting_withPresence
    {domain : α -> Prop}
    {encode : α -> Bytes}
    (delimiting : SelfDelimiting domain encode) :
    SelfDelimiting (OptionalDomain domain) (withPresence encode) := by
  intro left right leftDomain rightDomain leftRest rightRest equal
  cases left with
  | none =>
      cases right with
      | none => simpa [withPresence] using equal
      | some value => simp [withPresence] at equal
  | some leftValue =>
      cases right with
      | none => simp [withPresence] at equal
      | some rightValue =>
          simp only [withPresence, List.cons_append, List.cons.injEq, true_and] at equal
          obtain ⟨values, rests⟩ :=
            delimiting _ _ (leftDomain _ rfl) (rightDomain _ rfl) _ _ equal
          exact ⟨congrArg some values, rests⟩

end Codec
