import MacosAuth.Agent.Hosts
import MacosAuth.Agent.Text
import MacosAuth.Helper.Request

/-!
# Key files

The helper and the agent read the same key files, each with its own parser. The
helper splits a file at line feeds. The agent splits it at the character `"\n"`, and
a CR LF pair is another character, so a line that ends in CR LF stays together with
the line after it.

For ASCII files the agent's parser is the helper's parser on the lines joined in this
way. The main result says for which files both read the same key.
-/

namespace MacosAuth
namespace EndToEnd

open Codec
open Protocol (utf8)
open Agent (IsAscii Segmentation AgentError KeyPlatform asciiCharacters trimmingCharacters)

/-! ## Reading a key file -/

/-- Key lookup with the text handling of the agent. -/
def keyPlatform
    {Key : Type}
    (segmentation : Segmentation)
    (platform : KeyPlatform Key) : KeyPlatform Key :=
  { platform with
    trimmed := fun text => String.ofList (trimmingCharacters text.toList)
    lines := fun text => (segmentation.lines text.toList).map String.ofList
    isComment := fun text => segmentation.isComment text.toList
    afterEquals := fun text => (segmentation.afterEquals text.toList).map String.ofList }

/-- `read_key_material` on the contents of a file, and `hex::decode`. -/
def helperKey (contents : List Char) : Option Bytes := do
  let material ← Helper.keyLine (Helper.lines contents)
  Helper.hexDecode (utf8 (String.ofList material))

/-- `readKeyMaterial` on a file, and `hexDecode`. -/
def agentKey
    {Key : Type}
    (segmentation : Segmentation)
    (platform : KeyPlatform Key)
    (file label : String) : Except AgentError Bytes := do
  let material ← (keyPlatform segmentation platform).readKeyMaterial none (some file) label
  segmentation.hexDecode material.toList

/-- Both sides fail on a file with these contents, or both read the same bytes. -/
def SameKey (segmentation : Segmentation) (contents : List Char) : Prop :=
  ∀ (Key : Type) (platform : KeyPlatform Key) (file label : String),
    platform.readSafeFile file label = .ok (String.ofList contents) ->
      (agentKey segmentation platform file label).toOption = helperKey contents

/-- What `read_key_material` does with the contents that it has read. -/
theorem ends_readKeyMaterial
    {path : Bytes}
    {rootOwned isPrivate : Bool}
    {trace : List Helper.HelperEvent}
    {contents : String}
    (read : (Helper.readTrustedFile path rootOwned isPrivate).Ends trace (.ok contents)) :
    ∃ result, (Helper.readKeyMaterial path rootOwned isPrivate).Ends trace result ∧
      helperKey contents.toList = result.toOption.bind fun material =>
        Helper.hexDecode (utf8 (String.ofList material)) := by
  unfold Helper.readKeyMaterial helperKey
  cases found : Helper.keyLine (Helper.lines contents.toList) with
  | some material =>
      refine ⟨.ok material, (Effect.Program.ends_bind _ _ _ _).mpr
        (.inl ⟨trace, [], contents, by simp, read, ?_⟩), rfl⟩
      simp [found]
  | none =>
      refine ⟨.error (.message ("key file " ++ Helper.displayPath path ++
        " does not contain key material")), (Effect.Program.ends_bind _ _ _ _).mpr
        (.inl ⟨trace, [], contents, by simp, read, ?_⟩), rfl⟩
      simp [found]

/-! ## Lines joined by CR LF -/

/-- The line ends in CR, so that the line feed after it is the second half of CR LF. -/
def EndsInReturn (line : List Char) : Prop :=
  line.getLast? = some '\r'

instance : DecidablePred EndsInReturn :=
  fun _ => inferInstanceAs (Decidable (_ = _))

/-- Lines of which those that end in CR stay together with the next one. -/
def joinReturns : List (List Char) -> List (List Char)
  | [] => []
  | [line] => [line]
  | line :: next :: rest =>
      if EndsInReturn line then
        (joinReturns (next :: rest)).modifyHead (line ++ '\n' :: ·)
      else
        line :: joinReturns (next :: rest)

theorem joinReturns_cons
    {line : List Char}
    {rest : List (List Char)}
    (nonempty : rest ≠ []) :
    joinReturns (line :: rest) =
      if EndsInReturn line then (joinReturns rest).modifyHead (line ++ '\n' :: ·)
      else line :: joinReturns rest := by
  obtain ⟨next, others, rfl⟩ := List.exists_cons_of_ne_nil nonempty
  rw [joinReturns]

/-- A longer first line joins in the same way. -/
theorem joinReturns_prepend
    {scalars line : List Char}
    {rest : List (List Char)}
    (sameEnd : rest ≠ [] -> (EndsInReturn (scalars ++ line) ↔ EndsInReturn line)) :
    joinReturns ((scalars ++ line) :: rest) =
      (joinReturns (line :: rest)).modifyHead (scalars ++ ·) := by
  by_cases nonempty : rest = []
  · rw [nonempty]
    rfl
  · have sameEnd := sameEnd nonempty
    rw [joinReturns_cons nonempty, joinReturns_cons nonempty]
    by_cases joined : EndsInReturn line
    · rw [if_pos (sameEnd.mpr joined), if_pos joined, List.modifyHead_modifyHead]
      congr 1
      funext group
      simp
    · rw [if_neg (mt sameEnd.mp joined), if_neg joined, List.modifyHead_cons]

/-- A text of several lines whose first one is empty starts with a line feed. -/
theorem exists_lineFeed_of_splitOn
    {text : List Char}
    {others : List (List Char)}
    (split : text.splitOn '\n' = [] :: others)
    (more : others ≠ []) :
    ∃ after, text = '\n' :: after := by
  cases text with
  | nil =>
      rw [List.splitOn_nil] at split
      exact absurd (List.cons.inj split).2.symm more
  | cons first after =>
      by_cases isLineFeed : first = '\n'
      · exact ⟨after, by rw [isLineFeed]⟩
      · rw [List.splitOn_cons_eq_if_modifyHead, if_neg (by simpa using isLineFeed)] at split
        obtain ⟨line, lines, nonempty⟩ := List.exists_cons_of_ne_nil
          (List.splitOn_ne_nil '\n' after)
        rw [nonempty, List.modifyHead_cons] at split
        exact absurd (List.cons.inj split).1 (by simp)

/-- The agent splits a text at those line feeds that do not follow a CR. -/
theorem splitOn_asciiCharacters (text : List Char) :
    ((asciiCharacters text).splitOn ['\n']).map List.flatten =
      joinReturns (text.splitOn '\n') := by
  have flattenHead (scalars : List Char) (groups : List (List (List Char))) :
      (groups.modifyHead (scalars :: ·)).map List.flatten =
        (groups.map List.flatten).modifyHead (scalars ++ ·) := by
    cases groups <;> simp
  induction text using MacosAuth.Agent.asciiCharacters.induct with
  | case1 => rfl
  | case2 rest inductionHypothesis =>
      rw [asciiCharacters, List.splitOn_cons_eq_if_modifyHead, if_neg (by decide),
        List.splitOn_cons_eq_if_modifyHead '\r', if_neg (by decide),
        List.splitOn_cons_eq_if_modifyHead '\n', if_pos (by decide), flattenHead,
        inductionHypothesis, List.modifyHead_cons,
        joinReturns_cons (List.splitOn_ne_nil _ _), if_pos (by decide)]
      rfl
  | case3 scalar rest noLineEnd inductionHypothesis =>
      rw [MacosAuth.Agent.asciiCharacters.eq_3 _ _ noLineEnd, List.splitOn_cons_eq_if_modifyHead,
        List.splitOn_cons_eq_if_modifyHead scalar]
      by_cases isLineFeed : scalar = '\n'
      · rw [if_pos (by simp [isLineFeed]), if_pos (by simp [isLineFeed]), List.map_cons,
          inductionHypothesis, joinReturns_cons (List.splitOn_ne_nil _ _), if_neg (by decide)]
        rfl
      · rw [if_neg (by simpa using isLineFeed), if_neg (by simpa using isLineFeed), flattenHead,
          inductionHypothesis]
        obtain ⟨first, others, split⟩ := List.exists_cons_of_ne_nil
          (List.splitOn_ne_nil '\n' rest)
        rw [split, List.modifyHead_cons]
        have sameEnd : others ≠ [] ->
            (EndsInReturn ([scalar] ++ first) ↔ EndsInReturn first) := by
          intro more
          cases first with
          | cons next line => simp [EndsInReturn]
          | nil =>
              obtain ⟨after, starts⟩ := exists_lineFeed_of_splitOn split more
              have noReturn : scalar ≠ '\r' := fun isReturn => noLineEnd after isReturn starts
              simp [EndsInReturn, noReturn]
        exact (joinReturns_prepend sameEnd).symm

/-! ## One parser for both sides -/

/-- The key material on a single line, if there is any. -/
def lineMaterial (line : List Char) : Option (List Char) :=
  let trimmed := Helper.trim line
  if trimmed = [] ∨ trimmed.head? = some '#' then
    none
  else if '=' ∈ trimmed then
    some (Helper.trim (trimmed.dropWhile (· ≠ '=')).tail)
  else
    some trimmed

theorem keyLine_eq_findSome? (lines : List (List Char)) :
    Helper.keyLine lines = lines.findSome? lineMaterial := by
  induction lines with
  | nil => rfl
  | cons line rest inductionHypothesis =>
      rw [Helper.keyLine, List.findSome?_cons, inductionHypothesis]
      simp only [lineMaterial]
      split_ifs <;> rfl

theorem trim_eq_trimBoth (text : List Char) :
    Helper.trim text = trimBoth Helper.isWhitespace text :=
  rfl

theorem lineMaterial_congr
    {left right : List Char}
    (sameTrim : Helper.trim left = Helper.trim right) :
    lineMaterial left = lineMaterial right := by
  simp only [lineMaterial, sameTrim]

/-- A CR at the end of a line is white space. -/
theorem lineMaterial_dropLast
    {line : List Char}
    (joined : EndsInReturn line) :
    lineMaterial line.dropLast = lineMaterial line := by
  have split : line = line.dropLast ++ ['\r'] := by
    rw [EndsInReturn, List.getLast?_eq_some_iff] at joined
    obtain ⟨front, rfl⟩ := joined
    rw [List.dropLast_concat]
  have sameTrim : Helper.trim line = Helper.trim line.dropLast := by
    conv_lhs => rw [split]
    exact trimBoth_append_right (by simp [Helper.isWhitespace]) _
  exact (lineMaterial_congr sameTrim).symm

theorem keyLine_lines (text : List Char) :
    Helper.keyLine (Helper.lines text) = (text.splitOn '\n').findSome? lineMaterial := by
  rw [keyLine_eq_findSome?, Helper.lines]
  induction text.splitOn '\n' using Helper.endLines.induct with
  | case1 => rfl
  | case2 => rfl
  | case3 final nonempty => simp [Helper.endLines, nonempty]
  | case4 line rest more inductionHypothesis =>
      rw [Helper.endLines.eq_3 _ _ more, List.findSome?_cons, List.findSome?_cons,
        inductionHypothesis]
      by_cases joined : line.getLast? = some '\r'
      · rw [if_pos joined, lineMaterial_dropLast joined]
      · rw [if_neg joined]

theorem head?_asciiCharacters (text : List Char) :
    ((asciiCharacters text).head? == some ['#']) = (text.head? == some '#') := by
  induction text using MacosAuth.Agent.asciiCharacters.induct with
  | case1 => rfl
  | case2 rest _ => rfl
  | case3 scalar rest noLineEnd _ =>
      rw [MacosAuth.Agent.asciiCharacters.eq_3 _ _ noLineEnd]
      simp

theorem mem_asciiCharacters_equals (text : List Char) :
    ['='] ∈ asciiCharacters text ↔ '=' ∈ text := by
  induction text using MacosAuth.Agent.asciiCharacters.induct with
  | case1 => simp [asciiCharacters]
  | case2 rest inductionHypothesis => simp [asciiCharacters, inductionHypothesis]
  | case3 scalar rest noLineEnd inductionHypothesis =>
      rw [MacosAuth.Agent.asciiCharacters.eq_3 _ _ noLineEnd]
      simp [inductionHypothesis]

theorem dropWhile_asciiCharacters (text : List Char) :
    ((asciiCharacters text).dropWhile (· ≠ ['='])).tail.flatten =
      (text.dropWhile (· ≠ '=')).tail := by
  induction text using MacosAuth.Agent.asciiCharacters.induct with
  | case1 => rfl
  | case2 rest inductionHypothesis => simpa [asciiCharacters] using inductionHypothesis
  | case3 scalar rest noLineEnd inductionHypothesis =>
      rw [MacosAuth.Agent.asciiCharacters.eq_3 _ _ noLineEnd]
      by_cases isEquals : scalar = '='
      · simp [isEquals, Agent.flatten_asciiCharacters]
      · rw [List.dropWhile_cons_of_pos (by simpa using isEquals),
          List.dropWhile_cons_of_pos (by simpa using isEquals), inductionHypothesis]

/-- On ASCII texts the agent looks for comments and values as the helper does. -/
theorem keyLine_keyPlatform
    {Key : Type}
    (segmentation : Segmentation)
    (platform : KeyPlatform Key)
    {lines : List (List Char)}
    (ascii : ∀ line ∈ lines, ∀ scalar ∈ line, IsAscii scalar) :
    (keyPlatform segmentation platform).keyLine (lines.map String.ofList) =
      (lines.findSome? lineMaterial).map String.ofList := by
  induction lines with
  | nil => rfl
  | cons line rest inductionHypothesis =>
      have trimmedAscii : ∀ scalar ∈ Helper.trim line, IsAscii scalar :=
        fun scalar member => ascii line (by simp) scalar (mem_of_mem_trimBoth member)
      have characters := segmentation.characters_of_ascii trimmedAscii
      have sameTrim (text : List Char) :
          (keyPlatform segmentation platform).trimmed (String.ofList text) =
            String.ofList (Helper.trim text) := by
        simp only [keyPlatform, String.toList_ofList]
        rfl
      have comment : (keyPlatform segmentation platform).isComment
          (String.ofList (Helper.trim line)) = ((Helper.trim line).head? == some '#') := by
        simp only [keyPlatform, String.toList_ofList, Segmentation.isComment, characters,
          head?_asciiCharacters]
      have value : (keyPlatform segmentation platform).afterEquals
          (String.ofList (Helper.trim line)) = if '=' ∈ Helper.trim line then
            some (String.ofList ((Helper.trim line).dropWhile (· ≠ '=')).tail) else none := by
        simp only [keyPlatform, String.toList_ofList, Segmentation.afterEquals, characters,
          mem_asciiCharacters_equals, dropWhile_asciiCharacters]
        split <;> rfl
      rw [List.map_cons, KeyPlatform.keyLine, List.findSome?_cons,
        inductionHypothesis fun other member => ascii other (by simp [member]), sameTrim,
        comment, value]
      simp only [lineMaterial]
      by_cases skipped : Helper.trim line = [] ∨ (Helper.trim line).head? = some '#'
      · rw [if_pos skipped, if_pos (by simpa using skipped)]
      · rw [if_neg skipped, if_neg (by simpa using skipped)]
        split_ifs with hasValue
        · simp only [sameTrim, Option.map_some]
        · rfl

theorem mem_of_mem_splitOn
    {text line : List Char}
    {scalar : Char}
    (member : line ∈ text.splitOn '\n')
    (inLine : scalar ∈ line) :
    scalar ∈ text := by
  induction text generalizing line with
  | nil =>
      rw [List.splitOn_nil, List.mem_singleton] at member
      rwa [member] at inLine
  | cons first rest inductionHypothesis =>
      rw [List.splitOn_cons_eq_if_modifyHead] at member
      obtain ⟨head, others, split⟩ := List.exists_cons_of_ne_nil
        (List.splitOn_ne_nil '\n' rest)
      rw [split] at member inductionHypothesis
      split_ifs at member
      · rcases List.mem_cons.mp member with rfl | inRest
        · exact absurd inLine (by simp)
        · exact List.mem_cons_of_mem _ (inductionHypothesis inRest inLine)
      · rcases List.mem_cons.mp member with rfl | inRest
        · rcases List.mem_cons.mp inLine with rfl | inHead
          · simp
          · exact List.mem_cons_of_mem _ (inductionHypothesis (by simp) inHead)
        · exact List.mem_cons_of_mem _
            (inductionHypothesis (List.mem_cons_of_mem _ inRest) inLine)

theorem isAscii_of_mem_joinReturns
    {lines : List (List Char)}
    (ascii : ∀ line ∈ lines, ∀ scalar ∈ line, IsAscii scalar) :
    ∀ line ∈ joinReturns lines, ∀ scalar ∈ line, IsAscii scalar := by
  induction lines with
  | nil => exact fun _ member => absurd member (by simp [joinReturns])
  | cons line rest inductionHypothesis =>
      have restAscii := inductionHypothesis fun other member => ascii other (by simp [member])
      have lineAscii := ascii line (by simp)
      by_cases nonempty : rest = []
      · rw [nonempty]
        exact fun group member => by rwa [List.mem_singleton.mp member]
      · rw [joinReturns_cons nonempty]
        split_ifs
        · cases groups : joinReturns rest with
          | nil => exact fun _ member => absurd member (by simp)
          | cons first others =>
              rw [groups] at restAscii
              intro group member scalar inGroup
              rcases List.mem_cons.mp member with rfl | inOthers
              · rcases List.mem_append.mp inGroup with inLine | inFirst
                · exact lineAscii scalar inLine
                · rcases List.mem_cons.mp inFirst with rfl | inFirst
                  · exact (by decide : ('\n').toNat < 128)
                  · exact restAscii first (by simp) scalar inFirst
              · exact restAscii group (by simp [inOthers]) scalar inGroup
        · intro group member
          rcases List.mem_cons.mp member with rfl | inRest
          · exact lineAscii
          · exact restAscii group inRest

/-- What the agent reads is what the helper would read from the joined lines. -/
theorem agentKey_eq
    {Key : Type}
    (segmentation : Segmentation)
    (platform : KeyPlatform Key)
    {file label : String}
    {contents : List Char}
    (ascii : ∀ scalar ∈ contents, IsAscii scalar)
    (read : platform.readSafeFile file label = .ok (String.ofList contents)) :
    (agentKey segmentation platform file label).toOption =
      ((joinReturns (contents.splitOn '\n')).findSome? lineMaterial).bind fun material =>
        (segmentation.hexDecode material).toOption := by
  have lines : (keyPlatform segmentation platform).lines (String.ofList contents) =
      (joinReturns (contents.splitOn '\n')).map String.ofList := by
    simp only [keyPlatform, String.toList_ofList, Segmentation.lines,
      segmentation.characters_of_ascii ascii, splitOn_asciiCharacters]
  have linesAscii : ∀ line ∈ contents.splitOn '\n', ∀ scalar ∈ line, IsAscii scalar :=
    fun line member scalar inLine => ascii scalar (mem_of_mem_splitOn member inLine)
  have found := keyLine_keyPlatform segmentation platform
    (isAscii_of_mem_joinReturns linesAscii)
  have readFile : (keyPlatform segmentation platform).readSafeFile file label =
      .ok (String.ofList contents) := read
  simp only [agentKey, KeyPlatform.readKeyMaterial, readFile]
  rw [← lines] at found
  cases material : (joinReturns (contents.splitOn '\n')).findSome? lineMaterial with
  | none =>
      rw [material, Option.map_none] at found
      simp only [bind, Except.bind, found]
      rfl
  | some text =>
      rw [material, Option.map_some] at found
      simp only [bind, Except.bind, found, pure, Except.pure, String.toList_ofList,
        Option.bind_some]

/-! ## Which files both sides read alike -/

def IsBlank (line : List Char) : Prop :=
  Helper.trim line = []

def IsComment (line : List Char) : Prop :=
  (Helper.trim line).head? = some '#'

instance : DecidablePred IsBlank :=
  fun _ => inferInstanceAs (Decidable (_ = _))

instance : DecidablePred IsComment :=
  fun _ => inferInstanceAs (Decidable (_ = _))

/-- From its first line on, only blank lines are joined to it by CR LF. -/
def OnlyBlanksJoined : List (List Char) -> Prop
  | line :: next :: rest =>
      EndsInReturn line -> IsBlank next ∧ OnlyBlanksJoined (next :: rest)
  | _ => True

/-- The first line that is neither blank nor a comment is not joined by CR LF to a
comment above it or to anything but blank lines below it. The flag says that a comment
is already joined to the first line. -/
def KeyLineAlone (afterComment : Prop) : List (List Char) -> Prop
  | [] => True
  | line :: rest =>
      if IsBlank line then KeyLineAlone (afterComment ∧ EndsInReturn line) rest
      else if IsComment line then KeyLineAlone (EndsInReturn line) rest
      else ¬afterComment ∧ OnlyBlanksJoined (line :: rest)

theorem isBlank_iff {line : List Char} :
    IsBlank line ↔ ∀ scalar ∈ line, Helper.isWhitespace scalar = true :=
  trimBoth_eq_nil_iff

/-- A text that starts a comment, whatever follows. -/
def StartsComment (text : List Char) : Prop :=
  ∃ blanks rest, text = blanks ++ '#' :: rest ∧ IsBlank blanks

theorem lineMaterial_of_isBlank
    {line : List Char}
    (blank : IsBlank line) :
    lineMaterial line = none := by
  simp only [lineMaterial]
  exact if_pos (.inl blank)

theorem lineMaterial_of_isComment
    {line : List Char}
    (comment : IsComment line) :
    lineMaterial line = none := by
  simp only [lineMaterial]
  exact if_pos (.inr comment)

theorem exists_lineMaterial
    {line : List Char}
    (notBlank : ¬IsBlank line)
    (notComment : ¬IsComment line) :
    ∃ material, lineMaterial line = some material := by
  have notSkipped : ¬(Helper.trim line = [] ∨ (Helper.trim line).head? = some '#') :=
    not_or.mpr ⟨notBlank, notComment⟩
  simp only [lineMaterial, if_neg notSkipped]
  split_ifs <;> exact ⟨_, rfl⟩

theorem lineMaterial_append_left
    {blanks : List Char}
    (blank : IsBlank blanks)
    (line : List Char) :
    lineMaterial (blanks ++ line) = lineMaterial line := by
  apply lineMaterial_congr
  exact trimBoth_append_left (isBlank_iff.mp blank) line

theorem lineMaterial_append_right
    {blanks : List Char}
    (blank : IsBlank blanks)
    (line : List Char) :
    lineMaterial (line ++ blanks) = lineMaterial line := by
  apply lineMaterial_congr
  exact trimBoth_append_right (isBlank_iff.mp blank) line

theorem StartsComment.append
    {text : List Char}
    (starts : StartsComment text)
    (after : List Char) :
    StartsComment (text ++ after) := by
  obtain ⟨blanks, rest, rfl, blank⟩ := starts
  exact ⟨blanks, rest ++ after, by simp, blank⟩

theorem StartsComment.isComment
    {text : List Char}
    (starts : StartsComment text) :
    IsComment text := by
  obtain ⟨blanks, rest, rfl, blank⟩ := starts
  rw [IsComment, trim_eq_trimBoth, trimBoth_append_left (isBlank_iff.mp blank)]
  have solid : Helper.isWhitespace '#' = false := by decide
  rcases trimBoth_eq_nil_or_cons Helper.isWhitespace ('#' :: rest) with
    empty | ⟨first, others, split, -⟩
  · rw [trimBoth_eq_nil_iff] at empty
    exact absurd (empty '#' (by simp)) (by simp [solid])
  · have isPrefix := List.rdropWhile_prefix Helper.isWhitespace ('#' :: rest)
    rw [trimBoth, List.dropWhile_cons_of_neg (by simp [solid])] at split ⊢
    rw [split] at isPrefix ⊢
    rw [(List.cons_prefix_cons.mp isPrefix).1]
    rfl

theorem IsComment.startsComment
    {line : List Char}
    (comment : IsComment line) :
    StartsComment line := by
  rw [IsComment, trim_eq_trimBoth, trimBoth] at comment
  have isPrefix := List.rdropWhile_prefix Helper.isWhitespace
    (line.dropWhile Helper.isWhitespace)
  obtain ⟨rest, trimmed⟩ : ∃ rest, (line.dropWhile Helper.isWhitespace).rdropWhile
      Helper.isWhitespace = '#' :: rest := List.head?_eq_some_iff.mp comment
  rw [trimmed] at isPrefix
  obtain ⟨after, dropped⟩ := isPrefix
  refine ⟨line.takeWhile Helper.isWhitespace, rest ++ after, ?_,
    isBlank_iff.mpr fun scalar member => List.mem_takeWhile_imp member⟩
  rw [← List.cons_append, dropped, List.takeWhile_append_dropWhile]

/-- Blank lines that are joined to a line do not change its material. -/
theorem OnlyBlanksJoined.joinReturns
    {line : List Char}
    {rest : List (List Char)}
    (joined : OnlyBlanksJoined (line :: rest)) :
    ∃ blanks others, EndToEnd.joinReturns (line :: rest) = (line ++ blanks) :: others ∧
      IsBlank blanks := by
  induction rest generalizing line with
  | nil => exact ⟨[], [], by simp [EndToEnd.joinReturns], rfl⟩
  | cons next rest inductionHypothesis =>
      rw [joinReturns_cons (by simp)]
      by_cases ends : EndsInReturn line
      · obtain ⟨nextBlank, nextJoined⟩ := joined ends
        obtain ⟨blanks, others, groups, blank⟩ := inductionHypothesis nextJoined
        rw [if_pos ends, groups]
        refine ⟨'\n' :: (next ++ blanks), others, rfl, isBlank_iff.mpr ?_⟩
        intro scalar member
        rcases List.mem_cons.mp member with rfl | inRest
        · decide
        · rcases List.mem_append.mp inRest with inNext | inBlanks
          · exact isBlank_iff.mp nextBlank scalar inNext
          · exact isBlank_iff.mp blank scalar inBlanks
      · rw [if_neg ends]
        exact ⟨[], _, by rw [List.append_nil], rfl⟩

theorem exists_joinReturns_cons (line : List Char) (rest : List (List Char)) :
    ∃ below others, joinReturns (line :: rest) = (line ++ below) :: others := by
  induction rest generalizing line with
  | nil => exact ⟨[], [], by rw [joinReturns, List.append_nil]⟩
  | cons next rest inductionHypothesis =>
      rw [joinReturns_cons (by simp)]
      split_ifs
      · obtain ⟨below, others, groups⟩ := inductionHypothesis next
        exact ⟨'\n' :: (next ++ below), others, by rw [groups, List.modifyHead_cons]⟩
      · exact ⟨[], joinReturns (next :: rest), by rw [List.append_nil]⟩

/-- What is joined below a line if it is not all blank. -/
theorem exists_joinedBelow
    {line : List Char}
    {rest : List (List Char)}
    (notBlank : ¬OnlyBlanksJoined (line :: rest)) :
    ∃ head others, joinReturns (line :: rest) = (line ++ '\n' :: head) :: others ∧
      ∃ scalar ∈ head, Helper.isWhitespace scalar = false := by
  induction rest generalizing line with
  | nil => exact absurd trivial notBlank
  | cons next rest inductionHypothesis =>
      rw [OnlyBlanksJoined, Classical.not_imp] at notBlank
      obtain ⟨ends, solid⟩ := notBlank
      rw [joinReturns_cons (by simp), if_pos ends]
      by_cases blank : IsBlank next
      · obtain ⟨head, others, groups, isSolid⟩ :=
          inductionHypothesis fun onlyBlanks => solid ⟨blank, onlyBlanks⟩
        obtain ⟨scalar, member, black⟩ := isSolid
        exact ⟨_, others, by rw [groups, List.modifyHead_cons], scalar, by simp [member], black⟩
      · obtain ⟨below, others, groups⟩ := exists_joinReturns_cons next rest
        obtain ⟨scalar, member, black⟩ : ∃ scalar ∈ next, Helper.isWhitespace scalar ≠ true := by
          simpa [isBlank_iff] using blank
        exact ⟨_, others, by rw [groups, List.modifyHead_cons], scalar, by simp [member],
          by simpa using black⟩

/-- What already stands in front of the first line, joined to it: blanks, or the start of
a comment. -/
def JoinedAbove (afterComment : Prop) (above : List Char) : Prop :=
  (afterComment -> StartsComment above) ∧ (¬afterComment -> IsBlank above)

theorem JoinedAbove.lineMaterial
    {afterComment : Prop}
    {above line : List Char}
    (joinedAbove : JoinedAbove afterComment above)
    (skipped : EndToEnd.lineMaterial line = none) :
    EndToEnd.lineMaterial (above ++ line) = none := by
  by_cases comment : afterComment
  · exact lineMaterial_of_isComment ((joinedAbove.1 comment).append line).isComment
  · rw [lineMaterial_append_left (joinedAbove.2 comment), skipped]

/-- A further line that is joined above. -/
theorem JoinedAbove.blank
    {afterComment : Prop}
    {above line : List Char}
    (joinedAbove : JoinedAbove afterComment above)
    (blank : IsBlank line)
    (ends : EndsInReturn line) :
    JoinedAbove (afterComment ∧ EndsInReturn line) (above ++ (line ++ ['\n'])) := by
  refine ⟨fun comment => (joinedAbove.1 comment.1).append _, fun noComment => ?_⟩
  have aboveBlank := joinedAbove.2 fun comment => noComment ⟨comment, ends⟩
  refine isBlank_iff.mpr fun scalar member => ?_
  rcases List.mem_append.mp member with inAbove | inLine
  · exact isBlank_iff.mp aboveBlank scalar inAbove
  · rcases List.mem_append.mp inLine with inLine | inEnd
    · exact isBlank_iff.mp blank scalar inLine
    · rw [List.mem_singleton.mp inEnd]
      decide

theorem JoinedAbove.comment
    {afterComment : Prop}
    {above line : List Char}
    (joinedAbove : JoinedAbove afterComment above)
    (isComment : IsComment line)
    (ends : EndsInReturn line) :
    JoinedAbove (EndsInReturn line) (above ++ (line ++ ['\n'])) := by
  refine ⟨fun _ => ?_, fun noComment => absurd ends noComment⟩
  by_cases comment : afterComment
  · exact (joinedAbove.1 comment).append _
  · obtain ⟨blanks, rest, whole, blank⟩ := isComment.startsComment.append ['\n']
    refine ⟨above ++ blanks, rest, by rw [whole, List.append_assoc], isBlank_iff.mpr ?_⟩
    intro scalar member
    rcases List.mem_append.mp member with inAbove | inBlanks
    · exact isBlank_iff.mp (joinedAbove.2 comment) scalar inAbove
    · exact isBlank_iff.mp blank scalar inBlanks

theorem JoinedAbove.apart
    {afterComment : Prop}
    (noComment : ¬afterComment) :
    JoinedAbove afterComment [] :=
  ⟨fun comment => absurd comment noComment, fun _ => rfl⟩

theorem modifyHead_nil_append (groups : List (List Char)) :
    groups.modifyHead ([] ++ ·) = groups := by
  cases groups <;> rfl

/-- What a blank line or a comment leaves joined above the next line. -/
theorem JoinedAbove.next
    {afterComment : Prop}
    {above line : List Char}
    (joinedAbove : JoinedAbove afterComment above)
    (skipped : IsBlank line ∨ IsComment line) :
    ∃ nextComment,
      (∀ rest, KeyLineAlone afterComment (line :: rest) ↔ KeyLineAlone nextComment rest) ∧
      (EndsInReturn line -> JoinedAbove nextComment (above ++ (line ++ ['\n']))) ∧
      (¬EndsInReturn line -> ¬nextComment) := by
  by_cases blank : IsBlank line
  · exact ⟨afterComment ∧ EndsInReturn line, fun rest => by rw [KeyLineAlone, if_pos blank],
      joinedAbove.blank blank, fun noEnd joined => noEnd joined.2⟩
  · have comment : IsComment line := skipped.resolve_left blank
    exact ⟨EndsInReturn line, fun rest => by rw [KeyLineAlone, if_neg blank, if_pos comment],
      joinedAbove.comment comment, id⟩

/-- Joining a line that the parsers skip, on its own. -/
theorem findSome?_joinReturns_skipped
    {line : List Char}
    {rest : List (List Char)}
    {afterComment : Prop}
    {above : List Char}
    (joinedAbove : JoinedAbove afterComment above)
    (skipped : IsBlank line ∨ IsComment line)
    (nonempty : rest ≠ []) :
    ((joinReturns (line :: rest)).modifyHead (above ++ ·)).findSome? lineMaterial =
      if EndsInReturn line then
        ((joinReturns rest).modifyHead ((above ++ (line ++ ['\n'])) ++ ·)).findSome? lineMaterial
      else
        (joinReturns rest).findSome? lineMaterial := by
  rw [joinReturns_cons nonempty]
  split_ifs with ends
  · rw [List.modifyHead_modifyHead]
    congr 2
    funext group
    simp
  · have noMaterial : lineMaterial line = none :=
      skipped.elim lineMaterial_of_isBlank lineMaterial_of_isComment
    rw [List.modifyHead_cons, List.findSome?_cons, joinedAbove.lineMaterial noMaterial]

/-- If the key line stands alone, joining lines does not change what is read. By
induction over the lines, with what is joined above the first one. -/
theorem findSome?_joinReturns
    {lines : List (List Char)}
    {afterComment : Prop}
    {above : List Char}
    (joinedAbove : JoinedAbove afterComment above)
    (alone : KeyLineAlone afterComment lines) :
    ((joinReturns lines).modifyHead (above ++ ·)).findSome? lineMaterial =
      lines.findSome? lineMaterial := by
  induction lines generalizing afterComment above with
  | nil => rfl
  | cons line rest inductionHypothesis =>
      by_cases skipped : IsBlank line ∨ IsComment line
      · have noMaterial : lineMaterial line = none :=
          skipped.elim lineMaterial_of_isBlank lineMaterial_of_isComment
        rw [List.findSome?_cons, noMaterial]
        by_cases nonempty : rest = []
        · rw [nonempty, joinReturns, List.modifyHead_cons, List.findSome?_cons,
            joinedAbove.lineMaterial noMaterial]
        · obtain ⟨nextComment, aloneIff, joinedNext, apart⟩ := joinedAbove.next skipped
          rw [findSome?_joinReturns_skipped joinedAbove skipped nonempty]
          split_ifs with ends
          · exact inductionHypothesis (joinedNext ends) ((aloneIff rest).mp alone)
          · have fresh := inductionHypothesis (JoinedAbove.apart (apart ends))
              ((aloneIff rest).mp alone)
            rwa [modifyHead_nil_append] at fresh
      · obtain ⟨notBlank, notComment⟩ := not_or.mp skipped
        obtain ⟨noComment, joined⟩ : ¬afterComment ∧ OnlyBlanksJoined (line :: rest) := by
          simpa only [KeyLineAlone, notBlank, notComment, if_false] using alone
        obtain ⟨blanks, others, groups, blank⟩ := joined.joinReturns
        obtain ⟨material, isMaterial⟩ := exists_lineMaterial notBlank notComment
        rw [groups, List.modifyHead_cons, List.findSome?_cons, List.findSome?_cons,
          lineMaterial_append_left (joinedAbove.2 noComment), lineMaterial_append_right blank,
          isMaterial]

/-! ## Decoding on both sides -/

theorem utf8_ofList_cons
    {scalar : Char}
    (ascii : IsAscii scalar)
    (rest : List Char) :
    utf8 (String.ofList (scalar :: rest)) =
      UInt8.ofNat scalar.toNat :: utf8 (String.ofList rest) := by
  have oneByte : scalar.utf8Size = 1 := by
    rw [Char.utf8Size_eq_one_iff, UInt32.le_iff_toNat_le]
    exact Nat.le_of_lt_succ ascii
  have single : utf8 (String.ofList [scalar]) = [UInt8.ofNat scalar.toNat] := by
    simp [utf8, List.utf8Encode, String.utf8EncodeChar_eq_singleton oneByte]
    rfl
  rw [← List.singleton_append, String.ofList_append, Helper.utf8_append, single,
    List.singleton_append]

/-- The digits of the helper and of the agent have the same values. -/
theorem hexValue_table : ∀ code < 128,
    Helper.hexValue (UInt8.ofNat code) =
      (Agent.hexDigitValue (Char.ofNat code)).map UInt8.ofNat := by
  decide

theorem hexValue_eq
    {scalar : Char}
    (ascii : IsAscii scalar) :
    Helper.hexValue (UInt8.ofNat scalar.toNat) =
      (Agent.hexDigitValue scalar).map UInt8.ofNat := by
  have row := hexValue_table scalar.toNat ascii
  rwa [Char.ofNat_toNat] at row

theorem parsesTo_of_hexDigitValue
    {high low : Char}
    {highValue lowValue : Nat}
    (isHigh : Agent.hexDigitValue high = some highValue)
    (isLow : Agent.hexDigitValue low = some lowValue) :
    Agent.ParsesTo (high, low) (UInt8.ofNat highValue * 16 + UInt8.ofNat lowValue) := by
  have highLt := (Agent.hexDigitValue_spec isHigh).1
  have lowLt := (Agent.hexDigitValue_spec isLow).1
  have byte : UInt8.ofNat highValue * 16 + UInt8.ofNat lowValue =
      UInt8.ofNat (highValue * 16 + lowValue) := by
    rw [UInt8.ofNat_add, UInt8.ofNat_mul]
    rfl
  rw [byte]
  exact Agent.parseByte_of_digitsValue (Agent.digitsValue_pair isHigh isLow) (by omega)

/-- On ASCII texts the helper decodes pairs of hexadecimal digits. -/
theorem helper_hexDecode_eq_some_iff
    {text : List Char}
    (ascii : ∀ scalar ∈ text, IsAscii scalar)
    {bytes : Bytes} :
    Helper.hexDecode (utf8 (String.ofList text)) = some bytes ↔
      ∃ pairs, text = Agent.pairsText pairs ∧ (∀ pair ∈ pairs, Agent.HexPair pair) ∧
        List.Forall₂ Agent.ParsesTo pairs bytes := by
  constructor
  · intro decoded
    induction text using List.twoStepInduction generalizing bytes with
    | nil =>
        obtain rfl := Option.some.inj decoded
        exact ⟨[], rfl, by simp, .nil⟩
    | singleton scalar =>
        rw [utf8_ofList_cons (ascii scalar (by simp))] at decoded
        exact absurd decoded (by simp [utf8, Helper.hexDecode])
    | cons_cons high low rest inductionHypothesis _ =>
        rw [utf8_ofList_cons (ascii high (by simp)), utf8_ofList_cons (ascii low (by simp)),
          Helper.hexDecode, hexValue_eq (ascii high (by simp)),
          hexValue_eq (ascii low (by simp))] at decoded
        simp only [Option.bind_eq_bind, Option.bind_eq_some_iff, Option.map_eq_some_iff] at decoded
        obtain ⟨_, ⟨highValue, isHigh, rfl⟩, _, ⟨lowValue, isLow, rfl⟩, restBytes, restDecoded,
          whole⟩ := decoded
        obtain rfl := Option.some.inj whole
        obtain ⟨pairs, rfl, hex, parsed⟩ := inductionHypothesis
          (fun scalar member => ascii scalar (by simp [member])) restDecoded
        refine ⟨(high, low) :: pairs, rfl, fun pair member => ?_,
          .cons (parsesTo_of_hexDigitValue isHigh isLow) parsed⟩
        rcases List.mem_cons.mp member with rfl | inRest
        · exact ⟨Agent.isHexDigit_of_hexDigitValue isHigh,
            Agent.isHexDigit_of_hexDigitValue isLow⟩
        · exact hex pair inRest
  · rintro ⟨pairs, rfl, hex, parsed⟩
    induction parsed with
    | nil => rfl
    | @cons pair byte pairs bytes headParsed _ inductionHypothesis =>
        obtain ⟨high, low⟩ := pair
        obtain ⟨highValue, isHigh⟩ := Agent.exists_hexDigitValue (hex (high, low) (by simp)).1
        obtain ⟨lowValue, isLow⟩ := Agent.exists_hexDigitValue (hex (high, low) (by simp)).2
        have restDecoded := inductionHypothesis
          (fun scalar member => ascii scalar (by simp [member]))
          fun other member => hex other (by simp [member])
        have sameByte := (parsesTo_of_hexDigitValue isHigh isLow).symm.trans headParsed
        rw [Agent.pairsText_cons, utf8_ofList_cons (ascii high (by simp)),
          utf8_ofList_cons (ascii low (by simp)), Helper.hexDecode,
          hexValue_eq (ascii high (by simp)), hexValue_eq (ascii low (by simp)), isHigh, isLow,
          restDecoded, ← Option.some.inj sameByte]
        rfl

/-- The helper and the agent decode a trimmed text alike unless it has signs. -/
theorem hexDecode_agree_iff
    (segmentation : Segmentation)
    {text : List Char}
    (ascii : ∀ scalar ∈ text, IsAscii scalar)
    (trimmed : trimmingCharacters text = text) :
    (segmentation.hexDecode text).toOption = Helper.hexDecode (utf8 (String.ofList text)) ↔
      ¬Segmentation.SignedHex text := by
  have agentDecodes (bytes : Bytes) :
      (segmentation.hexDecode text).toOption = some bytes ↔
        ∃ pairs, text = Agent.pairsText pairs ∧ List.Forall₂ Agent.ParsesTo pairs bytes := by
    have decodes : segmentation.hexDecode text = .ok bytes ↔ _ :=
      segmentation.hexDecode_eq_ok_iff
    rw [trimmed] at decodes
    rw [← decodes]
    cases segmentation.hexDecode text <;> simp [Except.toOption]
  constructor
  · rintro agree ⟨pairs, isPairs, accepted, pair, member, signed⟩
    obtain ⟨bytes, parsed⟩ := Agent.exists_bytes_of_pairs accepted
    have decoded := (agentDecodes bytes).mpr ⟨pairs, isPairs, parsed⟩
    rw [agree] at decoded
    obtain ⟨hexPairs, isHexPairs, hex, -⟩ := (helper_hexDecode_eq_some_iff ascii).mp decoded
    exact Segmentation.not_signedPair_of_hexPairs (isPairs.symm.trans isHexPairs) hex pair
      member signed
  · intro unsigned
    ext bytes
    rw [agentDecodes, helper_hexDecode_eq_some_iff ascii]
    constructor
    · rintro ⟨pairs, isPairs, parsed⟩
      have accepted : ∀ pair ∈ pairs, Agent.HexPair pair ∨ Agent.SignedPair pair :=
        fun pair member => Agent.hexPair_or_signedPair_iff.mpr
          (Agent.exists_parsed_of_mem parsed member)
      refine ⟨pairs, isPairs, fun pair member => ?_, parsed⟩
      exact (accepted pair member).resolve_right fun signed =>
        unsigned ⟨pairs, isPairs, accepted, pair, member, signed⟩
    · rintro ⟨pairs, isPairs, -, parsed⟩
      exact ⟨pairs, isPairs, parsed⟩

/-- The text that is found on a line is trimmed and comes from it. -/
theorem lineMaterial_spec
    {line material : List Char}
    (isMaterial : lineMaterial line = some material) :
    trimmingCharacters material = material ∧ ∀ scalar ∈ material, scalar ∈ line := by
  simp only [lineMaterial] at isMaterial
  split_ifs at isMaterial
  · obtain rfl := Option.some.inj isMaterial
    refine ⟨trimBoth_trimBoth _, fun scalar member => ?_⟩
    exact mem_of_mem_trimBoth ((List.dropWhile_sublist _).subset
      (List.mem_of_mem_tail (mem_of_mem_trimBoth member)))
  · obtain rfl := Option.some.inj isMaterial
    exact ⟨trimBoth_trimBoth _, fun scalar => mem_of_mem_trimBoth⟩

/-- The text on the key line of the file. -/
def keyText (contents : List Char) : Option (List Char) :=
  (contents.splitOn '\n').findSome? lineMaterial

/-- The key line of the file stands alone. -/
def ReadsAlone (contents : List Char) : Prop :=
  KeyLineAlone False (contents.splitOn '\n')

/-- An agent on which every file has these contents. -/
def filePlatform (contents : List Char) : KeyPlatform Bytes where
  canonicalForm := id
  trimmed := id
  lines text := [text]
  isComment _ := false
  afterEquals _ := none
  readSafeFile _ _ := .ok (String.ofList contents)
  publicKey hex := .ok (utf8 hex)
  isValidSignature _ _ _ := false

theorem helperKey_eq (contents : List Char) :
    helperKey contents = (keyText contents).bind fun material =>
      Helper.hexDecode (utf8 (String.ofList material)) := by
  rw [helperKey, keyLine_lines]
  rfl

/-- The comparison of the two sides without the files. -/
theorem sameKey_iff
    (segmentation : Segmentation)
    {contents : List Char}
    (ascii : ∀ scalar ∈ contents, IsAscii scalar) :
    SameKey segmentation contents ↔
      (((joinReturns (contents.splitOn '\n')).findSome? lineMaterial).bind fun material =>
        (segmentation.hexDecode material).toOption) =
      (keyText contents).bind fun material => Helper.hexDecode (utf8 (String.ofList material)) := by
  constructor
  · intro same
    rw [← helperKey_eq, ← same Bytes (filePlatform contents) "key" "key" rfl]
    exact (agentKey_eq segmentation (filePlatform contents) ascii rfl).symm
  · intro agree Key platform file label read
    rw [agentKey_eq segmentation platform ascii read, agree, helperKey_eq]

/-- A file whose key line stands alone is read alike unless the key has signs. -/
theorem sameKey_iff_of_readsAlone
    (segmentation : Segmentation)
    {contents : List Char}
    (ascii : ∀ scalar ∈ contents, IsAscii scalar)
    (alone : ReadsAlone contents) :
    SameKey segmentation contents ↔
      ∀ material, keyText contents = some material -> ¬Segmentation.SignedHex material := by
  have joined := findSome?_joinReturns (JoinedAbove.apart not_false) alone
  rw [modifyHead_nil_append] at joined
  rw [sameKey_iff segmentation ascii, joined]
  cases found : keyText contents with
  | none =>
      rw [keyText] at found
      simp [found]
  | some material =>
      obtain ⟨line, member, isMaterial⟩ := List.exists_of_findSome?_eq_some found
      obtain ⟨trimmed, fromLine⟩ := lineMaterial_spec isMaterial
      have materialAscii : ∀ scalar ∈ material, IsAscii scalar := fun scalar inMaterial =>
        ascii scalar (mem_of_mem_splitOn member (fromLine scalar inMaterial))
      rw [keyText] at found
      rw [found, Option.bind_some, Option.bind_some,
        hexDecode_agree_iff segmentation materialAscii trimmed]
      simp

/-! ## Files that differ in the key only -/

/-- A key file with a place for the key. -/
structure KeyFile where
  before : List (List Char)
  /-- What stands in front of the key on its line. -/
  name : List Char
  /-- What stands behind the key on its line. -/
  trailing : List Char
  after : List (List Char)
  /-- The lines above the key line are blank or comments. -/
  skipped : ∀ line ∈ before, IsBlank line ∨ IsComment line
  /-- There are only blanks in front of the key, or a name and an equals sign. -/
  named : IsBlank name ∨ ∃ label blanks, name = label ++ '=' :: blanks ∧ '=' ∉ label ∧
    ¬StartsComment label ∧ IsBlank blanks
  /-- There is nothing but white space behind the key. -/
  trailing_blank : IsBlank trailing
  /-- No line contains a line feed. -/
  oneLine : ∀ line ∈ before ++ name :: trailing :: after, '\n' ∉ line
  /-- The text is ASCII. -/
  ascii : ∀ line ∈ before ++ name :: trailing :: after, ∀ scalar ∈ line, IsAscii scalar

namespace KeyFile

variable (file : KeyFile)

def keyLine (key : Bytes) : List Char :=
  file.name ++ Agent.hexEncode key ++ file.trailing

def lines (key : Bytes) : List (List Char) :=
  file.before ++ file.keyLine key :: file.after

/-- The contents of the file with this key. -/
def contents (key : Bytes) : List Char :=
  ['\n'].intercalate (file.lines key)

end KeyFile

/-- The material behind the first equals sign of a line. -/
theorem lineMaterial_named
    {label : List Char}
    (noEquals : '=' ∉ label)
    (noComment : ¬StartsComment label)
    (value : List Char) :
    lineMaterial (label ++ '=' :: value) = some (Helper.trim value) := by
  have solid : Helper.isWhitespace '=' = false := by decide
  have trimmed : Helper.trim (label ++ '=' :: value) =
      label.dropWhile Helper.isWhitespace ++ '=' :: value.rdropWhile Helper.isWhitespace :=
    trimBoth_append_cons solid label value
  have noEqualsLeft : '=' ∉ label.dropWhile Helper.isWhitespace := fun member =>
    noEquals ((List.dropWhile_sublist _).subset member)
  have notSkipped : ¬(Helper.trim (label ++ '=' :: value) = [] ∨
      (Helper.trim (label ++ '=' :: value)).head? = some '#') := by
    rintro (empty | comment)
    · rw [trimmed] at empty
      exact absurd empty (by simp)
    · rw [trimmed] at comment
      cases front : label.dropWhile Helper.isWhitespace with
      | nil =>
          rw [front] at comment
          exact absurd (Option.some.inj comment) (by decide)
      | cons first rest =>
          rw [front] at comment
          obtain rfl : first = '#' := Option.some.inj comment
          refine noComment ⟨label.takeWhile Helper.isWhitespace, rest, ?_,
            isBlank_iff.mpr fun scalar member => List.mem_takeWhile_imp member⟩
          rw [← front, List.takeWhile_append_dropWhile]
  have hasEquals : '=' ∈ Helper.trim (label ++ '=' :: value) := by
    rw [trimmed]
    simp
  have dropped : (Helper.trim (label ++ '=' :: value)).dropWhile (· ≠ '=') =
      '=' :: value.rdropWhile Helper.isWhitespace := by
    rw [trimmed, dropWhile_append_of_all]
    · exact List.dropWhile_cons_of_neg (by simp)
    · intro scalar member
      simpa using fun isEquals : scalar = '=' => noEqualsLeft (isEquals ▸ member)
  simp only [lineMaterial, if_neg notSkipped, if_pos hasEquals, dropped, List.tail_cons]
  exact congrArg some (trimBoth_rdropWhile value)

/-- A text without an equals sign in front of a digit. -/
theorem lineMaterial_unnamed
    {text : List Char}
    (noEquals : '=' ∉ text)
    (notSkipped : ¬(IsBlank text ∨ IsComment text)) :
    lineMaterial text = some (Helper.trim text) := by
  have noEqualsTrimmed : '=' ∉ Helper.trim text := fun member =>
    noEquals (mem_of_mem_trimBoth member)
  have notSkipped : ¬(Helper.trim text = [] ∨ (Helper.trim text).head? = some '#') := notSkipped
  simp only [lineMaterial, if_neg notSkipped, if_neg noEqualsTrimmed]

theorem nonempty_of_length
    {key : Bytes}
    (length : key.length = 32) :
    key ≠ [] := by
  rintro rfl
  exact absurd length (by decide)

theorem isHexDigit_of_mem_hexEncode
    {key : Bytes}
    {scalar : Char}
    (member : scalar ∈ Agent.hexEncode key) :
    Agent.IsHexDigit scalar := by
  obtain ⟨byte, -, inPair⟩ := List.mem_flatMap.mp member
  have bound := byte.toNat_lt
  have high := Agent.hexDigitValue_digitChar (byte.toNat / 16) (by omega)
  have low := Agent.hexDigitValue_digitChar (byte.toNat % 16) (by omega)
  rcases List.mem_cons.mp inPair with rfl | inLow
  · exact Agent.isHexDigit_of_hexDigitValue high
  · obtain rfl := List.mem_singleton.mp inLow
    exact Agent.isHexDigit_of_hexDigitValue low

theorem solid_of_isHexDigit
    {scalar : Char}
    (isDigit : Agent.IsHexDigit scalar) :
    Helper.isWhitespace scalar = false :=
  Agent.isWhitespaceOrNewline_of_digit (.inl isDigit)

/-- The encoding of a key starts with a digit. -/
theorem exists_hexEncode_cons
    {key : Bytes}
    (nonempty : key ≠ []) :
    ∃ first rest, Agent.hexEncode key = first :: rest ∧ Agent.IsHexDigit first := by
  obtain ⟨byte, bytes, rfl⟩ := List.exists_cons_of_ne_nil nonempty
  have isDigit : ∀ scalar ∈ Agent.hexEncode (byte :: bytes), Agent.IsHexDigit scalar :=
    fun _ => isHexDigit_of_mem_hexEncode
  exact ⟨_, _, rfl, isDigit _ List.mem_cons_self⟩

/-- A text that starts with a digit is neither blank nor a comment. -/
theorem not_startsComment_of_digit
    {first : Char}
    (isDigit : Agent.IsHexDigit first)
    (rest : List Char) :
    ¬StartsComment (first :: rest) := by
  rintro ⟨blanks, after, split, blank⟩
  cases blanks with
  | nil => exact isDigit.ne (by decide) (List.cons.inj split).1
  | cons head blanks =>
      have headBlank := isBlank_iff.mp blank head (by simp)
      rw [← (List.cons.inj split).1, solid_of_isHexDigit isDigit] at headBlank
      exact absurd headBlank (by simp)

theorem not_skipped_of_digit
    {first : Char}
    (isDigit : Agent.IsHexDigit first)
    (rest : List Char) :
    ¬(IsBlank (first :: rest) ∨ IsComment (first :: rest)) := by
  rintro (blank | comment)
  · have headBlank := isBlank_iff.mp blank first (by simp)
    rw [solid_of_isHexDigit isDigit] at headBlank
    exact absurd headBlank (by simp)
  · exact not_startsComment_of_digit isDigit rest comment.startsComment

theorem trim_hexEncode (key : Bytes) : Helper.trim (Agent.hexEncode key) = Agent.hexEncode key :=
  trimBoth_eq_self fun _ member => solid_of_isHexDigit (isHexDigit_of_mem_hexEncode member)

theorem equals_not_mem_hexEncode (key : Bytes) : '=' ∉ Agent.hexEncode key := fun member =>
  absurd (isHexDigit_of_mem_hexEncode member) (by decide)

/-- What the agent makes of lines that are already joined. -/
def decodeLines (segmentation : Segmentation) (lines : List (List Char)) : Option Bytes :=
  (lines.findSome? lineMaterial).bind fun material => (segmentation.hexDecode material).toOption

theorem decodeLines_cons_some
    (segmentation : Segmentation)
    {line material : List Char}
    (isMaterial : lineMaterial line = some material)
    (others : List (List Char)) :
    decodeLines segmentation (line :: others) =
      (segmentation.hexDecode material).toOption := by
  rw [decodeLines, List.findSome?_cons, isMaterial, Option.bind_some]

/-- A text with a line feed inside is not a key. -/
theorem hexDecode_lineFeed
    (segmentation : Segmentation)
    {text : List Char}
    (lineFeed : '\n' ∈ Helper.trim text) :
    (segmentation.hexDecode (Helper.trim text)).toOption = none := by
  cases decoded : segmentation.hexDecode (Helper.trim text) with
  | error error => rfl
  | ok bytes =>
      obtain ⟨pairs, isPairs, parsed⟩ := segmentation.hexDecode_eq_ok_iff.mp decoded
      have trimmed : trimmingCharacters (Helper.trim text) = Helper.trim text :=
        trimBoth_trimBoth text
      rw [trimmed] at isPairs
      rw [isPairs] at lineFeed
      have digit := Agent.digits_of_pairs (fun pair member =>
        Agent.hexPair_or_signedPair_iff.mpr (Agent.exists_parsed_of_mem parsed member)) '\n'
        lineFeed
      exact absurd digit (by decide)

/-- Below a key, joined text that is not blank keeps the line feed. -/
theorem lineFeed_mem_trim
    {key : Bytes}
    (nonempty : key ≠ [])
    {front head : List Char}
    (solid : ∃ scalar ∈ head, Helper.isWhitespace scalar = false) :
    '\n' ∈ Helper.trim (Agent.hexEncode key ++ (front ++ '\n' :: head)) := by
  obtain ⟨first, rest, digits, isDigit⟩ := exists_hexEncode_cons nonempty
  obtain ⟨scalar, member, isSolid⟩ := solid
  have whole : Helper.trim (Agent.hexEncode key ++ (front ++ '\n' :: head)) =
      (Agent.hexEncode key).dropWhile Helper.isWhitespace ++
        (front ++ '\n' :: head).rdropWhile Helper.isWhitespace :=
    trimBoth_append ⟨first, by simp [digits], solid_of_isHexDigit isDigit⟩
      ⟨scalar, by simp [member], isSolid⟩
  have kept : (front ++ '\n' :: head).rdropWhile Helper.isWhitespace =
      (front ++ ['\n']) ++ head.rdropWhile Helper.isWhitespace := by
    rw [← rdropWhile_append_of_exists ⟨scalar, member, isSolid⟩]
    simp
  rw [whole, kept]
  simp

theorem mem_intercalate
    {lines : List (List Char)}
    {scalar : Char}
    (member : scalar ∈ ['\n'].intercalate lines) :
    scalar = '\n' ∨ ∃ line ∈ lines, scalar ∈ line := by
  induction lines with
  | nil => exact absurd member (by simp)
  | cons line rest inductionHypothesis =>
      by_cases nonempty : rest = []
      · rw [nonempty, List.intercalate_singleton] at member
        exact .inr ⟨line, by simp, member⟩
      · rw [List.intercalate_cons_of_ne_nil nonempty] at member
        rcases List.mem_append.mp member with inLine | inRest
        · rcases List.mem_append.mp inLine with inLine | inSeparator
          · exact .inr ⟨line, by simp, inLine⟩
          · exact .inl (List.mem_singleton.mp inSeparator)
        · rcases inductionHypothesis inRest with isLineFeed | ⟨other, otherMember, inOther⟩
          · exact .inl isLineFeed
          · exact .inr ⟨other, by simp [otherMember], inOther⟩

theorem not_signedHex_hexEncode (key : Bytes) :
    ¬Segmentation.SignedHex (Agent.hexEncode key) := by
  rintro ⟨pairs, isPairs, -, pair, member, signed⟩
  rw [Agent.hexEncode_eq_pairsText] at isPairs
  refine Segmentation.not_signedPair_of_hexPairs isPairs.symm (fun other otherMember => ?_)
    pair member signed
  obtain ⟨byte, byteMember, rfl⟩ := List.mem_map.mp otherMember
  have digit (scalar : Char) (inPair : scalar ∈ Agent.pairText (Agent.digitPair byte)) :
      Agent.IsHexDigit scalar :=
    isHexDigit_of_mem_hexEncode (List.mem_flatMap.mpr ⟨byte, byteMember, inPair⟩)
  exact ⟨digit _ (by simp [Agent.pairText]), digit _ (by simp [Agent.pairText])⟩

theorem helper_hexDecode_hexEncode (key : Bytes) :
    Helper.hexDecode (utf8 (String.ofList (Agent.hexEncode key))) = some key := by
  have ascii : ∀ scalar ∈ Agent.hexEncode key, IsAscii scalar := fun scalar member =>
    Agent.isAscii_of_digit (.inl (isHexDigit_of_mem_hexEncode member))
  have agree := (hexDecode_agree_iff Agent.plainSegmentation ascii (trim_hexEncode key)).mpr
    (not_signedHex_hexEncode key)
  rw [← agree, Agent.plainSegmentation.hexDecode_encoded]
  rfl

namespace KeyFile

variable {file : KeyFile}

/-- The parsers find the key on its line. -/
theorem lineMaterial_keyLine
    {key : Bytes}
    (nonempty : key ≠ []) :
    lineMaterial (file.keyLine key) = some (Agent.hexEncode key) := by
  rw [keyLine, lineMaterial_append_right file.trailing_blank]
  rcases file.named with blank | ⟨label, blanks, named, noEquals, noComment, blank⟩
  · obtain ⟨first, rest, digits, isDigit⟩ := exists_hexEncode_cons nonempty
    have notSkipped : ¬(IsBlank (Agent.hexEncode key) ∨ IsComment (Agent.hexEncode key)) := by
      rw [digits]
      exact not_skipped_of_digit isDigit rest
    rw [lineMaterial_append_left blank,
      lineMaterial_unnamed (equals_not_mem_hexEncode key) notSkipped, trim_hexEncode]
  · rw [named, List.append_assoc, List.cons_append, lineMaterial_named noEquals noComment,
      trim_eq_trimBoth, trimBoth_append_left (isBlank_iff.mp blank), ← trim_eq_trimBoth,
      trim_hexEncode]

/-- With further text joined below it, the agent does not read the key any more. -/
theorem decodeLines_joinedBelow
    (segmentation : Segmentation)
    {above front head : List Char}
    (aboveBlank : IsBlank above)
    (solid : ∃ scalar ∈ head, Helper.isWhitespace scalar = false)
    {left right : Bytes}
    (leftNonempty : left ≠ [])
    (rightNonempty : right ≠ [])
    (others : List (List Char)) :
    decodeLines segmentation
        ((above ++ (file.name ++ (Agent.hexEncode left ++ (front ++ '\n' :: head)))) :: others) =
      decodeLines segmentation
        ((above ++ (file.name ++ (Agent.hexEncode right ++ (front ++ '\n' :: head)))) ::
          others) := by
  rcases file.named with blank | ⟨label, blanks, named, noEquals, noComment, blank⟩
  · by_cases hasEquals : '=' ∈ front ++ '\n' :: head
    · -- the agent reads a value further below
      obtain ⟨label, value, split, noEquals⟩ := List.eq_append_cons_of_mem hasEquals
      have below {key : Bytes} (nonempty : key ≠ []) :
          lineMaterial (above ++ (file.name ++ (Agent.hexEncode key ++
            (front ++ '\n' :: head)))) = some (Helper.trim value) := by
        obtain ⟨first, rest, digits, isDigit⟩ := exists_hexEncode_cons nonempty
        rw [lineMaterial_append_left aboveBlank, lineMaterial_append_left blank, split,
          ← List.append_assoc]
        refine lineMaterial_named (fun member => ?_) ?_ value
        · rcases List.mem_append.mp member with inKey | inLabel
          · exact equals_not_mem_hexEncode key inKey
          · exact noEquals inLabel
        · rw [digits, List.cons_append]
          exact not_startsComment_of_digit isDigit _
      rw [decodeLines_cons_some segmentation (below leftNonempty),
        decodeLines_cons_some segmentation (below rightNonempty)]
    · -- the agent takes everything for the key
      have undecoded {key : Bytes} (nonempty : key ≠ []) :
          decodeLines segmentation ((above ++ (file.name ++ (Agent.hexEncode key ++
            (front ++ '\n' :: head)))) :: others) = none := by
        obtain ⟨first, rest, digits, isDigit⟩ := exists_hexEncode_cons nonempty
        have noEquals : '=' ∉ Agent.hexEncode key ++ (front ++ '\n' :: head) := fun member =>
          (List.mem_append.mp member).elim (equals_not_mem_hexEncode key) hasEquals
        have notSkipped : ¬(IsBlank (Agent.hexEncode key ++ (front ++ '\n' :: head)) ∨
            IsComment (Agent.hexEncode key ++ (front ++ '\n' :: head))) := by
          rw [digits]
          exact not_skipped_of_digit isDigit _
        have material := lineMaterial_unnamed noEquals notSkipped
        rw [← lineMaterial_append_left blank, ← lineMaterial_append_left aboveBlank] at material
        rw [decodeLines_cons_some segmentation material,
          hexDecode_lineFeed segmentation (lineFeed_mem_trim nonempty solid)]
      rw [undecoded leftNonempty, undecoded rightNonempty]
  · have undecoded {key : Bytes} (nonempty : key ≠ []) :
        decodeLines segmentation ((above ++ (file.name ++ (Agent.hexEncode key ++
          (front ++ '\n' :: head)))) :: others) = none := by
      have material := lineMaterial_named noEquals noComment
        (blanks ++ (Agent.hexEncode key ++ (front ++ '\n' :: head)))
      have sameTrim : Helper.trim (blanks ++ (Agent.hexEncode key ++ (front ++ '\n' :: head))) =
          Helper.trim (Agent.hexEncode key ++ (front ++ '\n' :: head)) :=
        trimBoth_append_left (isBlank_iff.mp blank) _
      rw [← lineMaterial_append_left aboveBlank, ← List.cons_append, ← List.append_assoc label,
        ← named, sameTrim] at material
      rw [decodeLines_cons_some segmentation material,
        hexDecode_lineFeed segmentation (lineFeed_mem_trim nonempty solid)]
    rw [undecoded leftNonempty, undecoded rightNonempty]

/-- White space behind the key decides whether its line ends in CR. -/
theorem endsInReturn_keyLine_iff
    {key : Bytes}
    (nonempty : key ≠ []) :
    EndsInReturn (file.keyLine key) ↔ EndsInReturn file.trailing := by
  obtain ⟨first, rest, digits, -⟩ := exists_hexEncode_cons nonempty
  have encoded : Agent.hexEncode key ≠ [] := by simp [digits]
  by_cases noTrailing : file.trailing = []
  · rw [keyLine, noTrailing, List.append_nil, EndsInReturn,
      List.getLast?_append_of_ne_nil _ encoded]
    constructor
    · intro ends
      exact absurd (isHexDigit_of_mem_hexEncode (List.mem_of_getLast? ends)) (by decide)
    · intro ends
      exact absurd ends (by decide)
  · rw [keyLine, EndsInReturn, List.getLast?_append_of_ne_nil _ noTrailing, EndsInReturn]

/-- The lines from the key line on, joined. -/
theorem joinReturns_keyLine
    {key : Bytes}
    (nonempty : key ≠ []) :
    joinReturns (file.keyLine key :: file.after) =
      (joinReturns (file.trailing :: file.after)).modifyHead
        ((file.name ++ Agent.hexEncode key) ++ ·) :=
  joinReturns_prepend fun _ => endsInReturn_keyLine_iff nonempty

theorem onlyBlanksJoined_keyLine_iff
    {key : Bytes}
    (nonempty : key ≠ []) :
    OnlyBlanksJoined (file.keyLine key :: file.after) ↔
      OnlyBlanksJoined (file.trailing :: file.after) := by
  cases file.after with
  | nil => exact Iff.rfl
  | cons next rest =>
      rw [OnlyBlanksJoined, OnlyBlanksJoined, endsInReturn_keyLine_iff nonempty]

theorem not_skipped_keyLine
    {key : Bytes}
    (nonempty : key ≠ []) :
    ¬(IsBlank (file.keyLine key) ∨ IsComment (file.keyLine key)) := by
  have isMaterial : lineMaterial (file.keyLine key) = _ := lineMaterial_keyLine nonempty
  rintro (blank | comment)
  · rw [lineMaterial_of_isBlank blank] at isMaterial
    exact absurd isMaterial (by simp)
  · rw [lineMaterial_of_isComment comment] at isMaterial
    exact absurd isMaterial (by simp)

/-- If the key line does not stand alone, what the agent reads does not depend on the key.
By induction over the lines above the key line. -/
theorem decodeLines_constant
    (segmentation : Segmentation)
    {before : List (List Char)}
    (skipped : ∀ line ∈ before, IsBlank line ∨ IsComment line)
    {afterComment : Prop}
    {above : List Char}
    (joinedAbove : JoinedAbove afterComment above)
    {sample left right : Bytes}
    (sampleNonempty : sample ≠ [])
    (leftNonempty : left ≠ [])
    (rightNonempty : right ≠ [])
    (notAlone : ¬KeyLineAlone afterComment (before ++ file.keyLine sample :: file.after)) :
    decodeLines segmentation ((joinReturns (before ++ file.keyLine left :: file.after)).modifyHead
        (above ++ ·)) =
      decodeLines segmentation
        ((joinReturns (before ++ file.keyLine right :: file.after)).modifyHead
          (above ++ ·)) := by
  induction before generalizing afterComment above with
  | nil =>
      have isKeyLine : ¬(IsBlank (file.keyLine sample) ∨ IsComment (file.keyLine sample)) :=
        not_skipped_keyLine sampleNonempty
      obtain ⟨notBlank, notComment⟩ := not_or.mp isKeyLine
      rw [List.nil_append, KeyLineAlone, if_neg notBlank, if_neg notComment,
        onlyBlanksJoined_keyLine_iff sampleNonempty] at notAlone
      rw [List.nil_append, List.nil_append, joinReturns_keyLine leftNonempty,
        joinReturns_keyLine rightNonempty, List.modifyHead_modifyHead,
        List.modifyHead_modifyHead]
      by_cases comment : afterComment
      · obtain ⟨below, others, groups⟩ := exists_joinReturns_cons file.trailing file.after
        have hidden (text : List Char) : lineMaterial (above ++ text) = none :=
          lineMaterial_of_isComment ((joinedAbove.1 comment).append text).isComment
        rw [groups]
        simp only [List.modifyHead_cons, Function.comp_apply, decodeLines, List.findSome?_cons,
          hidden]
      · have notBlanks : ¬OnlyBlanksJoined (file.trailing :: file.after) := fun onlyBlanks =>
          notAlone ⟨comment, onlyBlanks⟩
        obtain ⟨head, others, groups, solid⟩ := exists_joinedBelow notBlanks
        rw [groups]
        simp only [List.modifyHead_cons, Function.comp_apply, List.append_assoc]
        exact decodeLines_joinedBelow segmentation (joinedAbove.2 comment) solid leftNonempty
          rightNonempty others
  | cons line before inductionHypothesis =>
      obtain ⟨nextComment, aloneIff, joinedNext, apart⟩ :=
        joinedAbove.next (skipped line (by simp))
      have restSkipped : ∀ other ∈ before, IsBlank other ∨ IsComment other :=
        fun other member => skipped other (by simp [member])
      rw [List.cons_append, aloneIff] at notAlone
      rw [List.cons_append, List.cons_append, decodeLines, decodeLines,
        findSome?_joinReturns_skipped joinedAbove (skipped line (by simp)) (by simp),
        findSome?_joinReturns_skipped joinedAbove (skipped line (by simp)) (by simp)]
      split_ifs with ends
      · exact inductionHypothesis restSkipped (joinedNext ends) notAlone
      · have fresh := inductionHypothesis restSkipped (JoinedAbove.apart (apart ends)) notAlone
        rwa [modifyHead_nil_append, modifyHead_nil_append] at fresh

/-! ## The lines of the file -/

theorem mem_lines
    {key : Bytes}
    {line : List Char}
    (member : line ∈ file.lines key)
    {scalar : Char}
    (inLine : scalar ∈ line) :
    (∃ other ∈ file.before ++ file.name :: file.trailing :: file.after, scalar ∈ other) ∨
      Agent.IsHexDigit scalar := by
  rcases List.mem_append.mp member with inBefore | inRest
  · exact .inl ⟨line, by simp [inBefore], inLine⟩
  · rcases List.mem_cons.mp inRest with rfl | inAfter
    · rcases List.mem_append.mp inLine with inLine | inTrailing
      · rcases List.mem_append.mp inLine with inName | inKey
        · exact .inl ⟨file.name, by simp, inName⟩
        · exact .inr (isHexDigit_of_mem_hexEncode inKey)
      · exact .inl ⟨file.trailing, by simp, inTrailing⟩
    · exact .inl ⟨line, by simp [inAfter], inLine⟩

theorem splitOn_contents (key : Bytes) : (file.contents key).splitOn '\n' = file.lines key := by
  refine List.splitOn_intercalate '\n' (fun line member lineFeed => ?_) (by simp [lines])
  rcases mem_lines member lineFeed with ⟨other, otherMember, inOther⟩ | isDigit
  · exact file.oneLine other otherMember inOther
  · exact absurd isDigit (by decide)

theorem isAscii_contents (key : Bytes) : ∀ scalar ∈ file.contents key, IsAscii scalar := by
  intro scalar member
  rcases mem_intercalate member with rfl | ⟨line, lineMember, inLine⟩
  · exact (by decide : ('\n').toNat < 128)
  · rcases mem_lines lineMember inLine with ⟨other, otherMember, inOther⟩ | isDigit
    · exact file.ascii other otherMember scalar inOther
    · exact Agent.isAscii_of_digit (.inl isDigit)

theorem keyText_contents
    {key : Bytes}
    (nonempty : key ≠ []) :
    keyText (file.contents key) = some (Agent.hexEncode key) := by
  have noneBefore : file.before.findSome? lineMaterial = none := by
    rw [List.findSome?_eq_none_iff]
    exact fun line member => (file.skipped line member).elim lineMaterial_of_isBlank
      lineMaterial_of_isComment
  rw [keyText, splitOn_contents, lines, List.findSome?_append, noneBefore, Option.none_or,
    List.findSome?_cons, lineMaterial_keyLine nonempty]

/-- The helper reads the key from the file. -/
theorem helperKey_contents
    {key : Bytes}
    (nonempty : key ≠ []) :
    helperKey (file.contents key) = some key := by
  rw [helperKey_eq, keyText_contents nonempty, Option.bind_some, helper_hexDecode_hexEncode]

/-- A file of this form is read alike for every key exactly if its key line stands
alone. -/
theorem sameKey_iff_readsAlone
    (file : KeyFile)
    (segmentation : Segmentation) :
    (∀ key : Bytes, key.length = 32 -> SameKey segmentation (file.contents key)) ↔
      ∀ key : Bytes, key.length = 32 -> ReadsAlone (file.contents key) := by
  constructor
  · intro same sample sampleLength
    by_contra notAlone
    have agentReads (key : Bytes) (length : key.length = 32) :
        decodeLines segmentation (joinReturns (file.lines key)) = some key := by
      have agree := (sameKey_iff segmentation (isAscii_contents key)).mp (same key length)
      rw [splitOn_contents, ← helperKey_eq, helperKey_contents (nonempty_of_length length)]
        at agree
      exact agree
    rw [ReadsAlone, splitOn_contents] at notAlone
    have zeros := agentReads (List.replicate 32 0) (by simp)
    have ones := agentReads (List.replicate 32 1) (by simp)
    have constant : decodeLines segmentation
          ((joinReturns (file.lines (List.replicate 32 0))).modifyHead ([] ++ ·)) =
        decodeLines segmentation
          ((joinReturns (file.lines (List.replicate 32 1))).modifyHead ([] ++ ·)) :=
      decodeLines_constant segmentation file.skipped (JoinedAbove.apart not_false)
        (nonempty_of_length sampleLength) (by simp) (by simp) notAlone
    rw [modifyHead_nil_append, modifyHead_nil_append] at constant
    exact absurd (Option.some.inj (zeros.symm.trans (constant.trans ones))) (by decide)
  · intro alone key length
    rw [sameKey_iff_of_readsAlone segmentation (isAscii_contents key) (alone key length)]
    intro material isMaterial
    rw [keyText_contents (nonempty_of_length length)] at isMaterial
    rw [← Option.some.inj isMaterial]
    exact not_signedHex_hexEncode key

end KeyFile

/-! ## Generated files -/

/-- The names in front of a generated key. -/
def generatedNames : List String :=
  ["private_key_hex=", "public_key_hex="]

/-- What `write_private_key_file` and `write_public_key_file` write, each with its name. -/
def helperKeyFile (name : String) (key : Bytes) : Bytes :=
  utf8 name ++ Helper.hexEncode key ++ utf8 "\n"

/-- What the agent's key generation hands to `writeNewFile`. -/
def agentKeyFile (name : String) (key : Bytes) : String :=
  name ++ String.ofList (Agent.hexEncode key) ++ "\n"

/-- Both sides write the same digits. -/
theorem hexDigit_table : ∀ value < 16,
    UInt8.ofNat (Nat.digitChar value).toNat = Helper.hexDigit (UInt8.ofNat value) := by
  decide

theorem utf8_hexEncode (key : Bytes) :
    utf8 (String.ofList (Agent.hexEncode key)) = Helper.hexEncode key := by
  induction key with
  | nil => rfl
  | cons byte key inductionHypothesis =>
      have bound := byte.toNat_lt
      have ascii (value : Nat) (small : value < 16) : IsAscii (Nat.digitChar value) :=
        Agent.isAscii_of_digit (.inl (Agent.isHexDigit_of_hexDigitValue
          (Agent.hexDigitValue_digitChar value small)))
      have encoded : Agent.hexEncode (byte :: key) =
          Nat.digitChar (byte.toNat / 16) :: Nat.digitChar (byte.toNat % 16) ::
            Agent.hexEncode key := rfl
      rw [encoded, utf8_ofList_cons (ascii _ (by omega)), utf8_ofList_cons (ascii _ (by omega)),
        hexDigit_table _ (by omega), hexDigit_table _ (by omega), inductionHypothesis]
      have high : UInt8.ofNat (byte.toNat / 16) = byte / 16 := by
        apply UInt8.toNat.inj
        rw [UInt8.toNat_ofNat', UInt8.toNat_div]
        exact Nat.mod_eq_of_lt (by omega)
      have low : UInt8.ofNat (byte.toNat % 16) = byte % 16 := by
        apply UInt8.toNat.inj
        rw [UInt8.toNat_ofNat', UInt8.toNat_mod]
        exact Nat.mod_eq_of_lt (by omega)
      rw [high, low]
      rfl

/-- Both sides generate the same files. -/
theorem utf8_agentKeyFile (name : String) (key : Bytes) :
    utf8 (agentKeyFile name key) = helperKeyFile name key := by
  rw [agentKeyFile, Helper.utf8_append, Helper.utf8_append, utf8_hexEncode, helperKeyFile]

theorem generatedNames_plain
    {name : String}
    (generated : name ∈ generatedNames) :
    ∀ scalar ∈ name.toList, scalar ≠ '\n' ∧ IsAscii scalar := by
  have plain : generatedNames.all (fun name => name.toList.all fun scalar =>
      scalar != '\n' && decide (scalar.toNat < 128)) = true := rfl
  intro scalar member
  have row := List.all_eq_true.mp (List.all_eq_true.mp plain name generated) scalar member
  simpa [IsAscii] using row

/-- A generated file as a file with a place for the key. -/
def generatedFile
    {name : String}
    (generated : name ∈ generatedNames) : KeyFile where
  before := []
  name := name.toList
  trailing := []
  after := [[]]
  skipped := by simp
  named := by
    right
    rcases List.mem_cons.mp generated with rfl | inRest
    · exact ⟨"private_key_hex".toList, [], rfl, by decide,
        fun starts => absurd starts.isComment (by decide), rfl⟩
    · obtain rfl := List.mem_singleton.mp inRest
      exact ⟨"public_key_hex".toList, [], rfl, by decide,
        fun starts => absurd starts.isComment (by decide), rfl⟩
  trailing_blank := rfl
  oneLine := by
    simpa using fun lineFeed => (generatedNames_plain generated '\n' lineFeed).1 rfl
  ascii := by
    simpa using fun scalar member => (generatedNames_plain generated scalar member).2

theorem contents_generatedFile
    {name : String}
    (generated : name ∈ generatedNames)
    (key : Bytes) :
    (generatedFile generated).contents key = (agentKeyFile name key).toList := by
  simp [KeyFile.contents, KeyFile.lines, KeyFile.keyLine, generatedFile, agentKeyFile]

theorem generated_read
    (segmentation : Segmentation)
    {name : String}
    (generated : name ∈ generatedNames)
    {key : Bytes}
    (length : key.length = 32) :
    helperKey (agentKeyFile name key).toList = some key ∧
      SameKey segmentation (agentKeyFile name key).toList := by
  have alone : ∀ other : Bytes, other.length = 32 ->
      ReadsAlone ((generatedFile generated).contents other) := by
    intro other otherLength
    have isKeyLine : ¬(IsBlank ((generatedFile generated).keyLine other) ∨
        IsComment ((generatedFile generated).keyLine other)) :=
      KeyFile.not_skipped_keyLine (nonempty_of_length otherLength)
    obtain ⟨notBlank, notComment⟩ := not_or.mp isKeyLine
    have keyLineFirst : (generatedFile generated).lines other =
        [(generatedFile generated).keyLine other, []] := rfl
    have noReturn : ¬EndsInReturn ((generatedFile generated).keyLine other) := by
      rw [KeyFile.endsInReturn_keyLine_iff (nonempty_of_length otherLength)]
      have noTrailing : (generatedFile generated).trailing = [] := rfl
      rw [noTrailing]
      decide
    rw [ReadsAlone, KeyFile.splitOn_contents, keyLineFirst, KeyLineAlone, if_neg notBlank,
      if_neg notComment]
    exact ⟨not_false, fun ends => absurd ends noReturn⟩
  rw [← contents_generatedFile generated]
  exact ⟨KeyFile.helperKey_contents (nonempty_of_length length),
    ((generatedFile generated).sameKey_iff_readsAlone segmentation).mpr alone key length⟩

/-- When the two sides read the same key: every file whose key line stands alone is read
alike unless the key has signs, a file that is to be read alike with every key needs a
key line that stands alone, and generated files are read back as the generated key. -/
theorem keyFiles_agree (segmentation : Segmentation) :
    (∀ contents : List Char, (∀ scalar ∈ contents, IsAscii scalar) -> ReadsAlone contents ->
      (SameKey segmentation contents ↔
        ∀ material, keyText contents = some material -> ¬Segmentation.SignedHex material)) ∧
    (∀ file : KeyFile,
      (∀ key : Bytes, key.length = 32 -> SameKey segmentation (file.contents key)) ↔
        ∀ key : Bytes, key.length = 32 -> ReadsAlone (file.contents key)) ∧
    (∀ name ∈ generatedNames, ∀ key : Bytes, key.length = 32 -> ∀ text : String,
      text = agentKeyFile name key ∨ utf8 text = helperKeyFile name key ->
        helperKey text.toList = some key ∧ SameKey segmentation text.toList) := by
  refine ⟨fun contents ascii alone => sameKey_iff_of_readsAlone segmentation ascii alone,
    fun file => file.sameKey_iff_readsAlone segmentation, ?_⟩
  intro name generated key length text written
  have isAgentFile : text = agentKeyFile name key := by
    rcases written with agentWritten | helperWritten
    · exact agentWritten
    · rw [← utf8_agentKeyFile] at helperWritten
      exact Protocol.utf8_injective helperWritten
  rw [isAgentFile]
  exact generated_read segmentation generated length

/-- A comment above the key, with CR LF line ends: the helper reads the key and the agent
finds none. -/
theorem keyFiles_disagree :
    helperKey "# host key\r\npublic_key_hex=ab\r\n".toList = some [0xab] ∧
      ¬SameKey Agent.plainSegmentation "# host key\r\npublic_key_hex=ab\r\n".toList := by
  refine ⟨rfl, fun same => ?_⟩
  have agree := same Bytes (filePlatform "# host key\r\npublic_key_hex=ab\r\n".toList) "key"
    "host public key" rfl
  exact absurd agree (by decide)

end EndToEnd
end MacosAuth
