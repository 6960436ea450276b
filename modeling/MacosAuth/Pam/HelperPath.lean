import MacosAuth.Helper.Trust
import Mathlib.Data.List.TakeWhile

/-!
# The helper path of the PAM module

Before it runs the helper, the PAM module walks to it from the root directory, as the
helper does for its own trusted paths. The two walks are written in different languages
and take their paths apart in different ways. The main result is that they apply one
policy: on every tree of files they accept the same paths and arrive at the same inode.
-/

namespace MacosAuth
namespace Pam

open Codec
open Effect Effect.Program
open Helper (File Metadata Routine HelperEvent orOsError isAbsolute pathComponents)
open Helper.Trust (checkMetadata componentNames descend openPath)

/-! ## Tokens -/

/-- `strtok_r` with the delimiter `/`: the next token and the text after it. -/
def strtok (text : Bytes) : Option (Bytes × Bytes) :=
  match text.dropWhile (· == 0x2f) with
  | [] => none
  | first :: rest =>
      some (first :: rest.takeWhile (· != 0x2f), (rest.dropWhile (· != 0x2f)).tail)

/-- Successive calls of `strtok_r`. Every token takes at least one byte. -/
def strtokAll : Nat -> Bytes -> List Bytes
  | 0, _ => []
  | left + 1, text =>
      match strtok text with
      | none => []
      | some (token, rest) => token :: strtokAll left rest

def tokens (path : Bytes) : List Bytes :=
  strtokAll path.length path

/-! ## The walk -/

def trustedMetadata (metadata : Metadata) (directory : Bool) : Bool :=
  metadata.uid == 0 && metadata.mode &&& 0x12 == 0 &&
    if directory then metadata.isDir else metadata.isFile && metadata.mode &&& 0x40 != 0

/-- A failed `validate_helper_path` returns no descriptor and no reason. -/
abbrev Attempt := Routine Unit File

/-- `fstat` succeeds and its result is trusted. -/
def checkFile (file : File) (directory : Bool) : Routine Unit Unit := do
  let answer : Except Nat Metadata ← perform (Helper.Call.fstat file)
  match answer with
  | .ok metadata => if trustedMetadata metadata directory then pure () else fail ()
  | .error _ => fail ()

/-- The loop over the components. -/
def walk : File -> List Bytes -> Attempt
  | file, [] => pure file
  | file, component :: rest => do
      if component = [0x2e] ∨ component = [0x2e, 0x2e] then
        fail ()
      else
        let next := !rest.isEmpty
        let answer : Except Nat File ← perform (Helper.Call.openat file component next)
        match answer with
        | .ok child => do
            checkFile child next
            walk child rest
        | .error _ => fail ()

def validateHelperPath (helperPath : Bytes) : Attempt := do
  if isAbsolute helperPath = false then
    fail ()
  else if helperPath.length < 2 ∨ helperPath.getLast? = some 0x2f then
    fail ()
  else
    let answer : Except Nat File ← perform Helper.Call.openRoot
    match answer with
    | .ok root => do
        checkFile root true
        walk root (tokens helperPath)
    | .error _ => fail ()

/-! ## What the tokens are -/

theorem strtok_length
    {text token rest : Bytes}
    (found : strtok text = some (token, rest)) :
    rest.length < text.length := by
  unfold strtok at found
  split at found
  · cases found
  · rename_i first others remains
    obtain ⟨rfl, rfl⟩ := Prod.mk.inj (Option.some.inj found)
    have dropped := (text.dropWhile_sublist (· == 0x2f)).length_le
    have shorter := (others.dropWhile_sublist (· != 0x2f)).length_le
    rw [remains] at dropped
    simp only [List.length_cons, List.length_tail] at dropped ⊢
    omega

/-- Separators in front of a path do not matter. -/
theorem split_dropWhile (text : Bytes) :
    ((text.dropWhile (· == 0x2f)).splitOn 0x2f).filter (· != []) =
      (text.splitOn 0x2f).filter (· != []) := by
  induction text with
  | nil => rfl
  | cons first rest inductionHypothesis =>
      by_cases separator : first = 0x2f
      · subst separator
        rw [List.dropWhile_cons_of_pos (by simp), inductionHypothesis,
          List.splitOn_cons_eq_if_modifyHead]
        simp
      · rw [List.dropWhile_cons_of_neg (by simpa using separator)]

/-- The first token is the first nonempty part. -/
theorem split_strtok (text : Bytes) :
    (text.splitOn 0x2f).filter (· != []) =
      match strtok text with
      | none => []
      | some (token, rest) => token :: (rest.splitOn 0x2f).filter (· != []) := by
  rw [← split_dropWhile, strtok]
  cases remains : text.dropWhile (· == 0x2f) with
  | nil => rfl
  | cons first others =>
      have notSeparator : first ≠ 0x2f := by
        have head := List.head?_dropWhile_not (· == 0x2f) text
        rw [remains] at head
        simpa using head
      have inToken : (0x2f : UInt8) ∉ first :: others.takeWhile (· != 0x2f) := by
        intro member
        rcases List.mem_cons.mp member with same | later
        · exact notSeparator same.symm
        · simpa using List.mem_takeWhile_imp later
      have whole : first :: others = (first :: others.takeWhile (· != 0x2f)) ++
          others.dropWhile (· != 0x2f) := by
        simp
      cases behind : others.dropWhile (· != 0x2f) with
      | nil =>
          rw [behind, List.append_nil] at whole
          have parts : (first :: others).splitOn 0x2f =
              [first :: others.takeWhile (· != 0x2f)] := by
            rw [whole]
            exact List.splitOn_eq_singleton inToken
          simp [parts, behind]
      | cons separator rest =>
          have head := List.head?_dropWhile_not (· != 0x2f) others
          rw [behind] at head whole
          obtain rfl : separator = 0x2f := by simpa using head
          have parts : (first :: others).splitOn 0x2f =
              (first :: others.takeWhile (· != 0x2f)) :: rest.splitOn 0x2f := by
            rw [whole]
            exact List.splitOn_append_cons_self_of_not_mem inToken rest
          simp [parts, behind]

/-- The tokens of a path are its nonempty parts. -/
theorem strtokAll_eq
    {left : Nat}
    {text : Bytes}
    (enough : text.length ≤ left) :
    strtokAll left text = (text.splitOn 0x2f).filter (· != []) := by
  induction left generalizing text with
  | zero =>
      obtain rfl : text = [] := List.length_eq_zero_iff.mp (Nat.le_zero.mp enough)
      rfl
  | succ left inductionHypothesis =>
      rw [strtokAll, split_strtok]
      cases found : strtok text with
      | none => rfl
      | some split =>
          obtain ⟨token, rest⟩ := split
          have shorter := strtok_length found
          simp only
          rw [inductionHypothesis (by omega)]

theorem mem_of_mem_split
    {path part : Bytes}
    {byte : UInt8}
    (isPart : part ∈ path.splitOn 0x2f)
    (member : byte ∈ part) :
    byte ∈ path := by
  induction path generalizing part with
  | nil => simp_all
  | cons first rest inductionHypothesis =>
      rw [List.splitOn_cons_eq_if_modifyHead] at isPart
      split at isPart
      · rcases List.mem_cons.mp isPart with rfl | later
        · exact absurd member (by simp)
        · exact List.mem_cons_of_mem _ (inductionHypothesis later member)
      · cases parts : rest.splitOn 0x2f with
        | nil => exact absurd parts (List.splitOn_ne_nil _ _)
        | cons head others =>
            rw [parts, List.modifyHead_cons] at isPart
            rcases List.mem_cons.mp isPart with rfl | later
            · rcases List.mem_cons.mp member with rfl | inHead
              · simp
              · exact List.mem_cons_of_mem _ (inductionHypothesis (by simp [parts]) inHead)
            · exact List.mem_cons_of_mem _ (inductionHypothesis (by simp [parts, later]) member)

/-- How the helper reads the parts of a path. -/
theorem componentNames_parts
    {parts names : List Bytes}
    (nulFree : ∀ part ∈ parts, 0 ∉ part)
    (noCurrent : [0x2e] ∉ parts) :
    componentNames (parts.filterMap fun part =>
        if part = [] ∨ part = [0x2e] then none
        else if part = [0x2e, 0x2e] then some .parentDir
        else some (.normal part)) = .ok names ↔
      names = parts.filter (· != []) ∧ [0x2e, 0x2e] ∉ parts := by
  induction parts generalizing names with
  | nil => simp [componentNames, eq_comm]
  | cons part rest inductionHypothesis =>
      have hypothesis (names : List Bytes) := @inductionHypothesis names
        (fun other member => nulFree other (List.mem_cons_of_mem _ member))
        fun member => noCurrent (List.mem_cons_of_mem _ member)
      have notCurrent : part ≠ [0x2e] := fun same => noCurrent (by simp [same])
      by_cases empty : part = []
      · subst empty
        simpa using hypothesis names
      · by_cases parent : part = [0x2e, 0x2e]
        · subst parent
          simp [componentNames]
        · have named : Helper.Trust.name part = .ok part := if_neg (nulFree part (by simp))
          simp only [List.filterMap_cons, empty, notCurrent, parent, or_self, if_false,
            componentNames, Protocol.bind_eq_ok, named, hypothesis, pure, Except.pure,
            Except.ok.injEq, List.mem_cons, not_or]
          simp only [exists_eq_left', Ne.symm parent, not_false_eq_true, true_and, bne_iff_ne, ne_eq,
            empty, List.filter_cons_of_pos]
          constructor
          · rintro ⟨_, ⟨rfl, noParent⟩, rfl⟩
            exact ⟨rfl, noParent⟩
          · rintro ⟨rfl, noParent⟩
            exact ⟨_, ⟨rfl, noParent⟩, rfl⟩

/-- The names of an absolute path without `.` components, as the helper reads them. -/
theorem componentNames_eq_ok_iff
    {path : Bytes}
    (absolute : isAbsolute path = true)
    (nulFree : 0 ∉ path)
    (noCurrent : [0x2e] ∉ path.splitOn 0x2f)
    {names : List Bytes} :
    componentNames (pathComponents path) = .ok names ↔
      names = tokens path ∧ [0x2e, 0x2e] ∉ tokens path := by
  have parts := @componentNames_parts (path.splitOn 0x2f) names
    (fun part isPart member => nulFree (mem_of_mem_split isPart member)) noCurrent
  rw [tokens, strtokAll_eq le_rfl]
  simpa [pathComponents, absolute, componentNames] using parts

/-! ## One policy -/

/-- A tree of files, as the answers of the system to the calls that walk through it. Any
of the calls may fail. -/
structure Tree where
  root : Except Nat File
  child : File -> Bytes -> Bool -> Except Nat File
  status : File -> Except Nat Metadata
  /-- No inode has two types. -/
  typed : ∀ file metadata, status file = .ok metadata ->
    ¬(metadata.isDir = true ∧ metadata.isFile = true)

namespace Tree

/-- The answers that agree with the tree. -/
def Answers (tree : Tree) : (request : Helper.Call) -> request.Answer -> Prop
  | .openRoot, answer => answer = tree.root
  | .openat directory name onlyDirectory, answer =>
      answer = tree.child directory name onlyDirectory
  | .fstat file, answer => answer = tree.status file
  | _, _ => True

/-- On this tree the program returns the file. -/
def Opens {ε : Type} (tree : Tree) (program : Routine ε File) (file : File) : Prop :=
  ∃ trace, Ends program trace (.ok file) ∧
    ∀ event ∈ trace, tree.Answers event.call event.answer

end Tree

section Policy

variable {tree : Tree} {file result : File} {component : Bytes} {rest : List Bytes}

/-- The two checks of an inode agree, apart from the permission to execute a file. -/
theorem trustedMetadata_eq_true_iff
    {metadata : Metadata}
    (typed : ¬(metadata.isDir = true ∧ metadata.isFile = true))
    {directory : Bool} :
    trustedMetadata metadata directory = true ↔
      checkMetadata metadata true directory false = .ok () ∧
        (directory = false -> metadata.mode &&& 0x40 ≠ 0) := by
  rw [Helper.Trust.checkMetadata_eq_ok_iff, trustedMetadata]
  simp only [Bool.and_eq_true, beq_iff_eq]
  cases directory <;> cases isDir : metadata.isDir <;> cases isFile : metadata.isFile <;>
    simp_all [and_assoc]

theorem ends_checkFile_ok
    {directory : Bool}
    {trace : List HelperEvent}
    {done : Unit} :
    Ends (checkFile file directory) trace (.ok done) ↔
      ∃ metadata, trace = [⟨.fstat file, .ok metadata⟩] ∧
        trustedMetadata metadata directory = true := by
  rw [checkFile, ends_perform_bind]
  constructor
  · rintro ⟨answer, later, rfl, ended⟩
    cases answer with
    | error code => exact absurd ((ends_fail _ _ _).mp ended).2 (by simp)
    | ok metadata =>
        dsimp only at ended
        split at ended
        · rename_i trusted
          obtain ⟨rfl, _⟩ := (ends_pure _ _ _).mp ended
          exact ⟨metadata, rfl, trusted⟩
        · exact absurd ((ends_fail _ _ _).mp ended).2 (by simp)
  · rintro ⟨metadata, rfl, trusted⟩
    refine ⟨.ok metadata, [], rfl, ?_⟩
    dsimp only
    rw [if_pos trusted]
    exact (ends_pure _ _ _).mpr ⟨rfl, rfl⟩

/-- One round of the loop. -/
theorem ends_walk_cons_ok {trace : List HelperEvent} :
    Ends (walk file (component :: rest)) trace (.ok result) ↔
      (component ≠ [0x2e] ∧ component ≠ [0x2e, 0x2e]) ∧
      ∃ child metadata later,
        trace = ⟨.openat file component (!rest.isEmpty), .ok child⟩ ::
          ⟨.fstat child, .ok metadata⟩ :: later ∧
        trustedMetadata metadata (!rest.isEmpty) = true ∧
        Ends (walk child rest) later (.ok result) := by
  rw [walk]
  by_cases dots : component = [0x2e] ∨ component = [0x2e, 0x2e]
  · rw [if_pos dots]
    refine iff_of_false (by simp) fun proper => ?_
    exact dots.elim proper.1.1 proper.1.2
  · rw [if_neg dots, ends_perform_bind]
    rw [not_or] at dots
    constructor
    · rintro ⟨answer, later, rfl, ended⟩
      refine ⟨dots, ?_⟩
      cases answer with
      | error code => exact absurd ((ends_fail _ _ _).mp ended).2 (by simp)
      | ok child =>
          dsimp only at ended
          rw [ends_bind_ok] at ended
          obtain ⟨_, further, _, rfl, checked, continued⟩ := ended
          obtain ⟨metadata, rfl, trusted⟩ := ends_checkFile_ok.mp checked
          exact ⟨child, metadata, further, rfl, trusted, continued⟩
    · rintro ⟨_, child, metadata, later, rfl, trusted, continued⟩
      refine ⟨.ok child, _, rfl, ?_⟩
      dsimp only
      rw [ends_bind_ok]
      exact ⟨[_], later, (), rfl, ends_checkFile_ok.mpr ⟨metadata, rfl, trusted⟩, continued⟩

theorem opens_walk_cons :
    tree.Opens (walk file (component :: rest)) result ↔
      (component ≠ [0x2e] ∧ component ≠ [0x2e, 0x2e]) ∧
      ∃ child metadata, tree.child file component (!rest.isEmpty) = .ok child ∧
        tree.status child = .ok metadata ∧
        trustedMetadata metadata (!rest.isEmpty) = true ∧
        tree.Opens (walk child rest) result := by
  simp only [Tree.Opens, ends_walk_cons_ok]
  constructor
  · rintro ⟨_, ⟨proper, child, metadata, later, rfl, trusted, continued⟩, answers⟩
    have opened : .ok child = tree.child file component _ := answers _ List.mem_cons_self
    have reported : .ok metadata = tree.status child := answers ⟨.fstat child, _⟩ (by simp)
    exact ⟨proper, child, metadata, opened.symm, reported.symm, trusted, later, continued,
      fun event member => answers event (by simp [member])⟩
  · rintro ⟨proper, child, metadata, opened, reported, trusted, later, continued, answers⟩
    refine ⟨_, ⟨proper, child, metadata, later, rfl, trusted, continued⟩, ?_⟩
    simp only [List.mem_cons, forall_eq_or_imp]
    exact ⟨opened.symm, reported.symm, answers⟩

theorem opens_descend_cons :
    tree.Opens (descend true false false file (component :: rest)) result ↔
      ∃ child metadata, tree.child file component (!rest.isEmpty) = .ok child ∧
        tree.status child = .ok metadata ∧
        checkMetadata metadata true (!rest.isEmpty) false = .ok () ∧
        tree.Opens (descend true false false child rest) result := by
  simp only [Tree.Opens, Helper.Trust.ends_descend_cons_ok, Bool.or_false, Bool.and_false]
  constructor
  · rintro ⟨_, ⟨child, metadata, later, rfl, checked, continued⟩, answers⟩
    have opened : .ok child = tree.child file component (!rest.isEmpty || false) :=
      answers _ List.mem_cons_self
    rw [Bool.or_false] at opened
    have reported : .ok metadata = tree.status child := answers ⟨.fstat child, _⟩ (by simp)
    exact ⟨child, metadata, opened.symm, reported.symm, checked, later, continued,
      fun event member => answers event (by simp [member])⟩
  · rintro ⟨child, metadata, opened, reported, checked, later, continued, answers⟩
    refine ⟨_, ⟨child, metadata, later, rfl, checked, continued⟩, ?_⟩
    rw [← Bool.or_false (!rest.isEmpty)] at opened
    simp only [List.mem_cons, forall_eq_or_imp]
    exact ⟨opened.symm, reported.symm, answers⟩

theorem opens_pure {ε : Type} :
    tree.Opens (pure file : Routine ε File) result ↔ result = file := by
  constructor
  · rintro ⟨trace, ended, _⟩
    exact Except.ok.inj ((ends_pure _ _ _).mp ended).2
  · rintro rfl
    exact ⟨[], (ends_pure _ _ _).mpr ⟨rfl, rfl⟩, by simp⟩

/-- The owner may execute the file. -/
def Tree.Executable (tree : Tree) (file : File) : Prop :=
  ∃ metadata, tree.status file = .ok metadata ∧ metadata.mode &&& 0x40 ≠ 0

/-- The two loops agree. -/
theorem opens_walk_iff :
    tree.Opens (walk file (component :: rest)) result ↔
      ([0x2e] ∉ component :: rest ∧ [0x2e, 0x2e] ∉ component :: rest) ∧
        tree.Opens (descend true false false file (component :: rest)) result ∧
        tree.Executable result := by
  induction rest generalizing file component with
  | nil =>
      rw [opens_walk_cons, opens_descend_cons]
      simp only [walk, descend, opens_pure]
      constructor
      · rintro ⟨proper, child, metadata, opened, reported, trusted, rfl⟩
        obtain ⟨checked, executable⟩ :=
          (trustedMetadata_eq_true_iff (tree.typed _ _ reported)).mp trusted
        refine ⟨?_, ⟨_, metadata, opened, reported, checked, rfl⟩, metadata, reported,
          executable rfl⟩
        simpa [eq_comm] using proper
      · rintro ⟨proper, ⟨child, metadata, opened, reported, checked, rfl⟩, again, sameReport,
          executable⟩
        obtain rfl := Except.ok.inj (reported.symm.trans sameReport)
        refine ⟨by simpa [eq_comm] using proper, _, metadata, opened, reported, ?_, rfl⟩
        exact (trustedMetadata_eq_true_iff (tree.typed _ _ reported)).mpr
          ⟨checked, fun _ => executable⟩
  | cons next rest inductionHypothesis =>
      rw [opens_walk_cons, opens_descend_cons]
      simp only [inductionHypothesis]
      constructor
      · rintro ⟨proper, child, metadata, opened, reported, trusted, ⟨noCurrent, noParent⟩,
          continued, executable⟩
        obtain ⟨checked, _⟩ :=
          (trustedMetadata_eq_true_iff (tree.typed _ _ reported)).mp trusted
        exact ⟨⟨List.not_mem_cons_of_ne_of_not_mem (Ne.symm proper.1) noCurrent,
          List.not_mem_cons_of_ne_of_not_mem (Ne.symm proper.2) noParent⟩,
          ⟨child, metadata, opened, reported, checked, continued⟩, executable⟩
      · rintro ⟨⟨noCurrent, noParent⟩, ⟨child, metadata, opened, reported, checked, continued⟩,
          executable⟩
        have trusted := (trustedMetadata_eq_true_iff (tree.typed _ _ reported)).mpr
          ⟨checked, fun contra => absurd contra (by simp)⟩
        exact ⟨⟨Ne.symm (List.ne_of_not_mem_cons noCurrent),
          Ne.symm (List.ne_of_not_mem_cons noParent)⟩, child, metadata, opened, reported, trusted,
          ⟨List.not_mem_of_not_mem_cons noCurrent, List.not_mem_of_not_mem_cons noParent⟩,
          continued, executable⟩

theorem ends_validateHelperPath_ok
    {path : Bytes}
    {trace : List HelperEvent} :
    Ends (validateHelperPath path) trace (.ok result) ↔
      (isAbsolute path = true ∧ path.getLast? ≠ some 0x2f) ∧
      ∃ root metadata later,
        trace = ⟨.openRoot, .ok root⟩ :: ⟨.fstat root, .ok metadata⟩ :: later ∧
        trustedMetadata metadata true = true ∧
        Ends (walk root (tokens path)) later (.ok result) := by
  rw [validateHelperPath]
  by_cases relative : isAbsolute path = false
  · rw [if_pos relative]
    exact iff_of_false (by simp) fun passed => by simp [passed.1.1] at relative
  · by_cases trailing : path.getLast? = some 0x2f
    · rw [if_neg relative, if_pos (.inr trailing)]
      exact iff_of_false (by simp) fun passed => passed.1.2 trailing
    · rw [Bool.not_eq_false] at relative
      have long : ¬path.length < 2 := by
        intro short
        match path, short with
        | [], _ => simp [isAbsolute] at relative
        | [only], _ =>
            obtain rfl : only = 0x2f := by simpa [isAbsolute] using relative
            exact trailing rfl
      rw [if_neg (by simp [relative]), if_neg (not_or.mpr ⟨long, trailing⟩), ends_perform_bind]
      constructor
      · rintro ⟨answer, later, rfl, ended⟩
        refine ⟨⟨relative, trailing⟩, ?_⟩
        cases answer with
        | error code => exact absurd ((ends_fail _ _ _).mp ended).2 (by simp)
        | ok root =>
            dsimp only at ended
            rw [ends_bind_ok] at ended
            obtain ⟨_, further, _, rfl, checked, continued⟩ := ended
            obtain ⟨metadata, rfl, trusted⟩ := ends_checkFile_ok.mp checked
            exact ⟨root, metadata, further, rfl, trusted, continued⟩
      · rintro ⟨_, root, metadata, later, rfl, trusted, continued⟩
        refine ⟨.ok root, _, rfl, ?_⟩
        dsimp only
        rw [ends_bind_ok]
        exact ⟨[_], later, (), rfl, ends_checkFile_ok.mpr ⟨metadata, rfl, trusted⟩, continued⟩

theorem opens_validateHelperPath {path : Bytes} :
    tree.Opens (validateHelperPath path) result ↔
      (isAbsolute path = true ∧ path.getLast? ≠ some 0x2f) ∧
      ∃ root metadata, tree.root = .ok root ∧ tree.status root = .ok metadata ∧
        trustedMetadata metadata true = true ∧ tree.Opens (walk root (tokens path)) result := by
  simp only [Tree.Opens, ends_validateHelperPath_ok]
  constructor
  · rintro ⟨_, ⟨shape, root, metadata, later, rfl, trusted, continued⟩, answers⟩
    have opened : .ok root = tree.root := answers _ List.mem_cons_self
    have reported : .ok metadata = tree.status root := answers ⟨.fstat root, _⟩ (by simp)
    exact ⟨shape, root, metadata, opened.symm, reported.symm, trusted, later, continued,
      fun event member => answers event (by simp [member])⟩
  · rintro ⟨shape, root, metadata, opened, reported, trusted, later, continued, answers⟩
    refine ⟨_, ⟨shape, root, metadata, later, rfl, trusted, continued⟩, ?_⟩
    simp only [List.mem_cons, forall_eq_or_imp]
    exact ⟨opened.symm, reported.symm, answers⟩

theorem opens_openPath {path : Bytes} :
    tree.Opens (openPath path true false false) result ↔
      isAbsolute path = true ∧
      ∃ names root metadata final, componentNames (pathComponents path) = .ok names ∧
        tree.root = .ok root ∧ tree.status root = .ok metadata ∧
        checkMetadata metadata true true false = .ok () ∧
        tree.Opens (descend true false false root names) result ∧
        tree.status result = .ok final ∧ checkMetadata final true false false = .ok () := by
  simp only [Tree.Opens, Helper.Trust.ends_openPath_ok]
  constructor
  · rintro ⟨_, ⟨absolute, names, root, metadata, walk, final, named, rfl, checked, walked,
      finalChecked⟩, answers⟩
    have opened : .ok root = tree.root := answers _ List.mem_cons_self
    have reported : .ok metadata = tree.status root := answers ⟨.fstat root, _⟩ (by simp)
    have finalReport : .ok final = tree.status result := answers ⟨.fstat result, _⟩ (by simp)
    exact ⟨absolute, names, root, metadata, final, named, opened.symm, reported.symm, checked,
      ⟨walk, walked, fun event member => answers event (by simp [member])⟩, finalReport.symm,
      finalChecked⟩
  · rintro ⟨absolute, names, root, metadata, final, named, opened, reported, checked,
      ⟨walk, walked, answers⟩, finalReport, finalChecked⟩
    refine ⟨_, ⟨absolute, names, root, metadata, walk, final, named, rfl, checked, walked,
      finalChecked⟩, ?_⟩
    simp only [List.mem_cons, List.mem_append, List.not_mem_nil, or_false]
    rintro event (rfl | rfl | member | rfl)
    · exact opened.symm
    · exact reported.symm
    · exact answers event member
    · exact finalReport.symm

/-- The last inode of a walk has been checked as a file. -/
theorem checked_of_descend
    (opens : tree.Opens (descend true false false file (component :: rest)) result) :
    ∃ metadata, tree.status result = .ok metadata ∧
      checkMetadata metadata true false false = .ok () := by
  induction rest generalizing file component with
  | nil =>
      obtain ⟨child, metadata, _, reported, checked, walked⟩ := opens_descend_cons.mp opens
      obtain rfl := opens_pure.mp walked
      exact ⟨metadata, reported, checked⟩
  | cons next rest inductionHypothesis =>
      obtain ⟨_, _, _, _, _, walked⟩ := opens_descend_cons.mp opens
      exact inductionHypothesis walked

end Policy

/-- A path that starts with a separator and does not end with one has a name. -/
theorem tokens_ne_nil
    {path : Bytes}
    (absolute : isAbsolute path = true)
    (noTrailing : path.getLast? ≠ some 0x2f) :
    tokens path ≠ [] := by
  intro none
  cases path with
  | nil => simp [isAbsolute] at absolute
  | cons first rest =>
      rw [tokens, List.length_cons, strtokAll] at none
      cases found : strtok (first :: rest) with
      | some split =>
          rw [found] at none
          cases none
      | none =>
          have onlySeparators : (first :: rest).dropWhile (· == 0x2f) = [] := by
            rw [strtok] at found
            cases remains : (first :: rest).dropWhile (· == 0x2f) with
            | nil => rfl
            | cons head others =>
                rw [remains] at found
                cases found
          have last := List.getLast_mem (List.cons_ne_nil first rest)
          have separator := List.dropWhile_eq_nil_iff.mp onlySeparators _ last
          rw [List.getLast?_eq_some_getLast (List.cons_ne_nil first rest)] at noTrailing
          exact noTrailing (congrArg some (beq_iff_eq.mp separator))

/-- The PAM module and the helper apply one policy. On every tree of files, and for every
path without NUL bytes, the PAM module opens the helper exactly if the path is absolute,
has neither a `.` component nor a trailing separator, leads to a file that the helper
itself would trust, and its owner may execute that file. Both arrive at the same inode. -/
theorem validateHelperPath_iff
    (tree : Tree)
    (path : Bytes)
    (nulFree : 0 ∉ path)
    (file : File) :
    tree.Opens (validateHelperPath path) file ↔
      isAbsolute path = true ∧ [0x2e] ∉ path.splitOn 0x2f ∧ path.getLast? ≠ some 0x2f ∧
        tree.Opens (openPath path true false false) file ∧ tree.Executable file := by
  rw [opens_validateHelperPath, opens_openPath]
  have current : [0x2e] ∈ tokens path ↔ [0x2e] ∈ path.splitOn 0x2f := by
    rw [tokens, strtokAll_eq le_rfl, List.mem_filter]
    simp
  constructor
  · rintro ⟨⟨absolute, noTrailing⟩, root, metadata, opened, reported, trusted, walked⟩
    obtain ⟨component, rest, named⟩ :=
      List.exists_cons_of_ne_nil (tokens_ne_nil absolute noTrailing)
    rw [named] at walked current
    obtain ⟨⟨noCurrent, noParent⟩, descended, executable⟩ := opens_walk_iff.mp walked
    obtain ⟨final, finalReport, finalChecked⟩ := checked_of_descend descended
    have noDot := fun member => noCurrent (current.mpr member)
    have names := (componentNames_eq_ok_iff absolute nulFree noDot).mpr ⟨rfl, named ▸ noParent⟩
    have checked := ((trustedMetadata_eq_true_iff (tree.typed _ _ reported)).mp trusted).1
    exact ⟨absolute, noDot, noTrailing, ⟨absolute, _, root, metadata, final, names, opened, reported,
      checked, named ▸ descended, finalReport, finalChecked⟩, executable⟩
  · rintro ⟨absolute, noDot, noTrailing, ⟨_, names, root, metadata, final, read, opened, reported,
      checked, descended, _, _⟩, executable⟩
    obtain ⟨rfl, noParent⟩ := (componentNames_eq_ok_iff absolute nulFree noDot).mp read
    obtain ⟨component, rest, named⟩ :=
      List.exists_cons_of_ne_nil (tokens_ne_nil absolute noTrailing)
    rw [named] at descended noParent current
    have trusted := (trustedMetadata_eq_true_iff (tree.typed _ _ reported)).mpr
      ⟨checked, fun contra => absurd contra (by simp)⟩
    refine ⟨⟨absolute, noTrailing⟩, root, metadata, opened, reported, trusted, ?_⟩
    rw [named]
    exact opens_walk_iff.mpr
      ⟨⟨fun member => noDot (current.mp member), noParent⟩, descended, executable⟩

/-- A tree with an executable of root at `/a/h`. -/
def sampleTree : Tree where
  root := .ok 0
  child
    | 0, name, _ => if name = Protocol.utf8 "a" then .ok 1 else .error 2
    | 1, name, false => if name = Protocol.utf8 "h" then .ok 2 else .error 2
    | _, _, _ => .error 20
  status
    | 0 | 1 => .ok ⟨true, false, 0, 0x1ed⟩
    | 2 => .ok ⟨false, true, 0, 0x1ed⟩
    | _ => .error 9
  typed file metadata reported := by
    split at reported <;> cases reported <;> simp

/-- Both walks arrive at the executable, although the path has a doubled separator. -/
theorem validateHelperPath_iff_doubled :
    sampleTree.Opens (openPath (Protocol.utf8 "/a//h") true false false) 2 ∧
      sampleTree.Executable 2 := by
  have walked : sampleTree.Opens (validateHelperPath (Protocol.utf8 "/a//h")) 2 := by
    refine ⟨[⟨.openRoot, sampleTree.root⟩, ⟨.fstat 0, sampleTree.status 0⟩,
      ⟨.openat 0 (Protocol.utf8 "a") true, .ok 1⟩, ⟨.fstat 1, sampleTree.status 1⟩,
      ⟨.openat 1 (Protocol.utf8 "h") false, .ok 2⟩, ⟨.fstat 2, sampleTree.status 2⟩],
      .call (.call (.call (.call (.call (.call (.refl _)))))), ?_⟩
    simp only [List.mem_cons, List.not_mem_nil, or_false, forall_eq_or_imp, forall_eq]
    exact ⟨rfl, rfl, rfl, rfl, rfl, rfl⟩
  obtain ⟨_, _, _, opens, executable⟩ :=
    (validateHelperPath_iff sampleTree (Protocol.utf8 "/a//h") (by decide) 2).mp walked
  exact ⟨opens, executable⟩

end Pam
end MacosAuth
