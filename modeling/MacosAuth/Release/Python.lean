import MacosAuth.Codec.SelfDelimiting
import Mathlib.Algebra.Order.Ring.Rat

/-!
# What the release scripts use of Python

The exceptions that a script may raise, the values that `json.loads` returns with Python's
equality on them, and text files. The encoding of text files, the JSON text and the digest
are the library's; they are the fields of `Python`.
-/

namespace MacosAuth
namespace Release

open Codec (Bytes)

/-- The exceptions that the modelled functions raise. -/
inductive Exception
  | valueError (message : String)
  /-- `UnicodeDecodeError` and `UnicodeEncodeError`. -/
  | unicodeError
  /-- `json.JSONDecodeError`. -/
  | jsonError
  | keyError (key : String)
  | typeError
  | attributeError
  | osError
  | subprocessError
  deriving DecidableEq, Repr

/-- Is the exception an instance of `ValueError`? -/
def Exception.isValueError : Exception -> Bool
  | .valueError _ | .unicodeError | .jsonError => true
  | _ => false

/-- `if condition: raise error`. -/
def refuse (condition : Bool) (error : Exception) : Except Exception Unit :=
  if condition then .error error else .ok ()

@[simp] theorem refuse_eq_ok
    (condition : Bool)
    (error : Exception)
    (value : Unit) :
    refuse condition error = .ok value ↔ condition = false := by
  cases condition <;> simp [refuse]

/-! ## JSON values -/

/-- What `json.loads` returns. A dictionary is the list of its items in the order of the
keys; none of the functions depends on the order in which it was built. -/
inductive Json
  | null
  | bool (value : Bool)
  | number (value : Rat)
  /-- `NaN`, `Infinity` or `-Infinity`. -/
  | constant (name : String)
  | string (text : String)
  | array (values : List Json)
  | object (fields : List (String × Json))

namespace Json

mutual

/-- Python's `==`. The booleans are the numbers 0 and 1. -/
def equals : Json -> Json -> Bool
  | .null, .null => true
  | .bool left, .bool right => left == right
  | .bool left, .number right => (if left then 1 else 0) == right
  | .number left, .bool right => left == (if right then 1 else 0)
  | .number left, .number right => left == right
  | .constant left, .constant right => left == right
  | .string left, .string right => left == right
  | .array left, .array right => equalsAll left right
  | .object left, .object right => equalsFields left right
  | _, _ => false

def equalsAll : List Json -> List Json -> Bool
  | [], [] => true
  | value :: rest, other :: others => value.equals other && equalsAll rest others
  | _, _ => false

def equalsFields : List (String × Json) -> List (String × Json) -> Bool
  | [], [] => true
  | (key, value) :: rest, (otherKey, other) :: others =>
      key == otherKey && value.equals other && equalsFields rest others
  | _, _ => false

end

mutual

/-- Every value is equal to itself. -/
theorem equals_self : (value : Json) -> value.equals value = true
  | .null => rfl
  | .bool value | .number value | .constant value | .string value => by simp [equals]
  | .array values => by
      rw [equals]
      exact equalsAll_self values
  | .object fields => by
      rw [equals]
      exact equalsFields_self fields

theorem equalsAll_self : (values : List Json) -> equalsAll values values = true
  | [] => rfl
  | value :: rest => by
      rw [equalsAll, equals_self value, equalsAll_self rest, Bool.true_and]

theorem equalsFields_self : (fields : List (String × Json)) -> equalsFields fields fields = true
  | [] => rfl
  | (key, value) :: rest => by
      rw [equalsFields, equals_self value, equalsFields_self rest, beq_self_eq_true,
        Bool.true_and, Bool.true_and]

end

mutual

/-- There is no number and no boolean in the value. -/
def Textual : Json -> Prop
  | .bool _ | .number _ => False
  | .array values => AllTextual values
  | .object fields => FieldsTextual fields
  | _ => True

def AllTextual : List Json -> Prop
  | [] => True
  | value :: rest => value.Textual ∧ AllTextual rest

def FieldsTextual : List (String × Json) -> Prop
  | [] => True
  | (_, value) :: rest => value.Textual ∧ FieldsTextual rest

end

mutual

/-- Python's equality with a value made of text is equality. -/
theorem equals_textual : (value other : Json) -> other.Textual ->
    value.equals other = true -> value = other
  | _, .bool _, textual, _ | _, .number _, textual, _ => textual.elim
  | .null, .null, _, _ => rfl
  | .constant left, .constant right, _, equal | .string left, .string right, _, equal => by
      rw [equals, beq_iff_eq] at equal
      rw [equal]
  | .array left, .array right, textual, equal => by
      rw [equals] at equal
      rw [equalsAll_textual left right textual equal]
  | .object left, .object right, textual, equal => by
      rw [equals] at equal
      rw [equalsFields_textual left right textual equal]

theorem equalsAll_textual : (values others : List Json) -> AllTextual others ->
    equalsAll values others = true -> values = others
  | [], [], _, _ => rfl
  | value :: rest, other :: others, textual, equal => by
      rw [equalsAll, Bool.and_eq_true] at equal
      rw [equals_textual value other textual.1 equal.1,
        equalsAll_textual rest others textual.2 equal.2]

theorem equalsFields_textual : (fields others : List (String × Json)) ->
    FieldsTextual others -> equalsFields fields others = true -> fields = others
  | [], [], _, _ => rfl
  | (key, value) :: rest, (otherKey, other) :: others, textual, equal => by
      rw [equalsFields, Bool.and_eq_true, Bool.and_eq_true, beq_iff_eq] at equal
      rw [equal.1.1, equals_textual value other textual.1 equal.1.2,
        equalsFields_textual rest others textual.2 equal.2]

end

/-- Only a string is equal to a string. -/
@[simp] theorem equals_string (value : Json) (text : String) :
    value.equals (.string text) = true ↔ value = .string text := by
  refine ⟨equals_textual value _ trivial, ?_⟩
  rintro rfl
  exact equals_self _

/-- `bool(value)`. -/
def isTruthy : Json -> Bool
  | .null => false
  | .bool value => value
  | .number value => value != 0
  | .constant _ => true
  | .string text => text != ""
  | .array values => !values.isEmpty
  | .object fields => !fields.isEmpty

/-- `value[key]` for a value that may not be a dictionary. -/
def item (value : Json) (key : String) : Except Exception Json :=
  match value with
  | .object fields =>
      match fields.lookup key with
      | some found => .ok found
      | none => .error (.keyError key)
  | _ => .error .typeError

/-- `value.get(key, default)`. -/
def getOr (value : Json) (key : String) (default : Json) : Except Exception Json :=
  match value with
  | .object fields => .ok ((fields.lookup key).getD default)
  | _ => .error .attributeError

/-- `value.get(key)`. -/
def get (value : Json) (key : String) : Except Exception Json :=
  value.getOr key .null

/-- What a dictionary has at a key, where it is known to have the key. -/
def field (value : Json) (key : String) : Json :=
  match value with
  | .object fields => (fields.lookup key).getD .null
  | _ => .null

theorem field_of_item
    {value found : Json}
    {key : String}
    (has : value.item key = .ok found) :
    value.field key = found := by
  cases value with
  | object fields =>
      rw [item] at has
      rw [field]
      cases looked : fields.lookup key with
      | none => simp [looked] at has
      | some other => simpa [looked] using has
  | _ => simp [item] at has

/-- The text of a string. -/
def text? : Json -> Option String
  | .string text => some text
  | _ => none

end Json

/-! ## Text files -/

/-- The translation of line ends when a text file is read. -/
def translateNewlines : List Char -> List Char
  | '\r' :: '\n' :: rest | '\r' :: rest => '\n' :: translateNewlines rest
  | character :: rest => character :: translateNewlines rest
  | [] => []

/-- There are no carriage returns in what was read. -/
theorem carriageReturn_notMem_translateNewlines (text : List Char) :
    '\r' ∉ translateNewlines text := by
  fun_induction translateNewlines text with
  | case1 rest inductionHypothesis => simpa using inductionHypothesis
  | case2 rest _ inductionHypothesis => simpa using inductionHypothesis
  | case3 character rest _ other inductionHypothesis =>
      rw [List.mem_cons, not_or]
      exact ⟨fun equal => other equal.symm, inductionHypothesis⟩
  | case4 => simp

/-- Text without carriage returns is read as it is. -/
theorem translateNewlines_eq_self
    {text : List Char}
    (plain : '\r' ∉ text) :
    translateNewlines text = text := by
  fun_induction translateNewlines text with
  | case1 rest _ => simp at plain
  | case2 rest _ _ => simp at plain
  | case3 character rest _ _ inductionHypothesis =>
      rw [inductionHypothesis fun member => plain (List.mem_cons_of_mem _ member)]
  | case4 => rfl

/-- The parts of Python's library that the functions rely on. -/
structure Python where
  /-- The bytes of a text file in the encoding of the locale, as text. -/
  decode : Bytes -> Option String
  /-- Text in the encoding of the locale. -/
  encode : String -> Option Bytes
  /-- `json.loads`. -/
  loads : String -> Option Json
  /-- `json.dumps(value, indent=2, sort_keys=True)`. -/
  dumps : Json -> String
  /-- The hexadecimal SHA-256 digest. -/
  sha256 : Bytes -> String
  /-- The characters that `\d` matches. -/
  isDecimal : Char -> Bool
  /-- `str(value)` for what is not a string. -/
  str : Json -> String
  /-- What was encoded is decoded again. -/
  decode_encode : ∀ text bytes, encode text = some bytes -> decode bytes = some text
  /-- JSON text is ASCII, and every encoding has ASCII. -/
  encode_dumps : ∀ value, ∃ bytes, encode (dumps value ++ "\n") = some bytes
  /-- Control characters are escaped in JSON text, and line ends are written as `\n`. -/
  dumps_plain : ∀ value, '\r' ∉ (dumps value).toList

namespace Python

variable (python : Python)

/-- The text of a file with the given bytes, as `read_text` returns it. -/
def textOf (content : Bytes) : Option String :=
  (python.decode content).map fun text => String.ofList (translateNewlines text.toList)

theorem textOf_plain
    {python : Python}
    {content : Bytes}
    {text : String}
    (read : python.textOf content = some text) :
    '\r' ∉ text.toList := by
  obtain ⟨decoded, _, rfl⟩ := Option.map_eq_some_iff.mp read
  rw [String.toList_ofList]
  exact carriageReturn_notMem_translateNewlines _

/-- What a text file was written with is what is read from it, if there is no carriage
return in it. -/
theorem textOf_of_encode
    {text : String}
    {content : Bytes}
    (encoded : python.encode text = some content)
    (plain : '\r' ∉ text.toList) :
    python.textOf content = some text := by
  rw [textOf, python.decode_encode text content encoded, Option.map_some,
    translateNewlines_eq_self plain, String.ofList_toList]

/-- The value in a JSON file. -/
def jsonOf (content : Bytes) : Option Json :=
  (python.textOf content).bind python.loads

/-- What `json_write` wrote is read back if the JSON text is. -/
theorem jsonOf_of_encode
    {value : Json}
    {content : Bytes}
    (encoded : python.encode (python.dumps value ++ "\n") = some content)
    (roundTrip : python.loads (python.dumps value ++ "\n") = some value) :
    python.jsonOf content = some value := by
  have plain : '\r' ∉ (python.dumps value ++ "\n").toList := by
    rw [String.toList_append, List.mem_append, not_or]
    exact ⟨python.dumps_plain value, by decide⟩
  rw [jsonOf, python.textOf_of_encode encoded plain, Option.bind_some, roundTrip]

end Python

end Release
end MacosAuth
