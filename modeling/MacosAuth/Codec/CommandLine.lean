import MacosAuth.Codec.SelfDelimiting

/-!
# Command lines of long options

A command line is a list of arguments. An option is an argument with its name, followed by
another argument if the option takes a value. A value that begins with a hyphen is taken for a
name by mistake, so a parser has to refuse it; what a parser accepts is what was meant.
-/

namespace Codec

/-- An option as it is given on a command line. -/
structure Setting where
  name : Bytes
  value : Option Bytes
  deriving DecidableEq

namespace Setting

/-- The arguments of one option. -/
def arguments (setting : Setting) : List Bytes :=
  setting.name :: setting.value.toList

/-- The arguments of several options. -/
def render (settings : List Setting) : List Bytes :=
  settings.flatMap arguments

@[simp] theorem render_nil : render [] = [] := rfl

@[simp] theorem render_cons (setting : Setting) (settings : List Setting) :
    render (setting :: settings) = setting.name :: (setting.value.toList ++ render settings) :=
  rfl

@[simp] theorem render_append (first second : List Setting) :
    render (first ++ second) = render first ++ render second := by
  simp [render]

/-- The option is given. -/
def isGiven (settings : List Setting) (name : Bytes) : Bool :=
  settings.any fun setting => setting.name == name

/-- The value of an option, if it is given. -/
def valueOf (settings : List Setting) (name : Bytes) : Option Bytes :=
  (settings.find? fun setting => setting.name == name).bind value

end Setting

/-- The options of a command. -/
structure Grammar where
  flags : List Bytes
  /-- The options that take a value. -/
  valued : List Bytes
  disjoint : ∀ name ∈ flags, name ∉ valued

namespace Grammar

variable (grammar : Grammar)

/-- The option belongs to the command, and it has a value if it takes one. -/
def Allows (setting : Setting) : Prop :=
  (setting.name ∈ grammar.flags ∧ setting.value = none) ∨
    (setting.name ∈ grammar.valued ∧ setting.value ≠ none)

/-- What an argument begins with that is no value. -/
def hyphen : UInt8 := 0x2d

/-- The options on a command line. -/
def parse : List Bytes -> Option (List Setting)
  | [] => some []
  | [name] => if name ∈ grammar.flags then some [⟨name, none⟩] else none
  | name :: argument :: rest =>
      if name ∈ grammar.flags then do
        let settings ← parse (argument :: rest)
        return ⟨name, none⟩ :: settings
      else if name ∈ grammar.valued ∧ argument.head? ≠ some hyphen then do
        let settings ← parse rest
        return ⟨name, some argument⟩ :: settings
      else
        none

variable {grammar}

theorem parse_flag
    {name : Bytes}
    (isFlag : name ∈ grammar.flags)
    (rest : List Bytes) :
    grammar.parse (name :: rest) = (grammar.parse rest).map (⟨name, none⟩ :: ·) := by
  cases rest with
  | nil => simp [parse, isFlag]
  | cons argument rest =>
      rw [parse, if_pos isFlag]
      cases grammar.parse (argument :: rest) <;> rfl

theorem parse_valued
    {name value : Bytes}
    (isValued : name ∈ grammar.valued)
    (rest : List Bytes) :
    grammar.parse (name :: value :: rest) =
      if value.head? = some hyphen then none
      else (grammar.parse rest).map (⟨name, some value⟩ :: ·) := by
  rw [parse, if_neg fun isFlag => grammar.disjoint name isFlag isValued]
  by_cases hyphened : value.head? = some hyphen
  · rw [if_pos hyphened, if_neg fun both => both.2 hyphened]
  · rw [if_neg hyphened, if_pos ⟨isValued, hyphened⟩]
    cases grammar.parse rest <;> rfl

/-- What is accepted of a command line is what it was made from. -/
theorem eq_of_parse_render
    {settings parsed : List Setting}
    (allowed : ∀ setting ∈ settings, grammar.Allows setting)
    (accepted : grammar.parse (Setting.render settings) = some parsed) :
    parsed = settings := by
  induction settings generalizing parsed with
  | nil => exact (Option.some.inj accepted).symm
  | cons setting settings inductionHypothesis =>
      have continues {rest : List Setting}
          (accepted : grammar.parse (Setting.render settings) = some rest) : rest = settings :=
        inductionHypothesis (fun other member => allowed other (List.mem_cons_of_mem _ member))
          accepted
      obtain ⟨name, value⟩ := setting
      rw [Setting.render_cons] at accepted
      rcases allowed ⟨name, value⟩ List.mem_cons_self with ⟨isFlag, isNone⟩ | ⟨isValued, isSome⟩
      · obtain rfl : value = none := isNone
        rw [Option.toList_none, List.nil_append, parse_flag isFlag, Option.map_eq_some_iff]
          at accepted
        obtain ⟨rest, parsedRest, rfl⟩ := accepted
        rw [continues parsedRest]
      · obtain ⟨value, rfl⟩ := Option.ne_none_iff_exists'.mp isSome
        rw [Option.toList_some, List.singleton_append, parse_valued isValued] at accepted
        split at accepted
        · cases accepted
        · rw [Option.map_eq_some_iff] at accepted
          obtain ⟨rest, parsedRest, rfl⟩ := accepted
          rw [continues parsedRest]

end Grammar
end Codec
