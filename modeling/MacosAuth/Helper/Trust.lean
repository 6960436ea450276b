import MacosAuth.Effect.System
import MacosAuth.Helper.SystemCalls
import MacosAuth.Unix.Filesystem

/-!
# Opening trusted paths

`trust::open` walks a path component by component from the root directory. It
follows no symbolic link, and it checks type, owner and mode of every descriptor
before it looks up the next name in it.

In production mode every directory on the way belongs to root and is writable by
root only. The main result is that no other user can influence such a walk: one
that succeeds returns the inode that it would have returned in an untouched
filesystem, and this inode stays beyond the user's reach.
-/

namespace MacosAuth
namespace Helper

open Codec
open Protocol (utf8)
open Effect Effect.Program

/-! ## Paths -/

inductive Component
  | rootDir
  | curDir
  | parentDir
  | normal (name : Bytes)
  deriving DecidableEq

def isAbsolute (path : Bytes) : Bool :=
  path.head? == some 0x2f

/-- `Path::components`: repeated separators and inner `.` components are dropped. -/
def pathComponents (path : Bytes) : List Component :=
  let parts := path.splitOn 0x2f
  let leading :=
    if isAbsolute path then [.rootDir]
    else if parts.head? = some [0x2e] then [.curDir]
    else []
  leading ++ parts.filterMap fun part =>
    if part = [] ∨ part = [0x2e] then none
    else if part = [0x2e, 0x2e] then some .parentDir
    else some (.normal part)

/-- `PathBuf::join`. -/
def joinPath (base path : Bytes) : Bytes :=
  if isAbsolute path then path
  else if base.getLast? = some 0x2f ∨ base = [] then base ++ path
  else base ++ [0x2f] ++ path

namespace Trust

def invalid (message : String) : IoError :=
  .permissionDenied message

/-- Names reach the kernel as NUL-terminated strings. -/
def name (value : Bytes) : Except IoError Bytes :=
  if 0 ∈ value then .error (invalid "path contains NUL") else .ok value

/-- The names of a path, in order. -/
def componentNames : List Component -> Except IoError (List Bytes)
  | [] => .ok []
  | .rootDir :: rest => componentNames rest
  | .curDir :: rest => componentNames rest
  | .parentDir :: _ => .error (invalid "trusted path must not contain parent components")
  | .normal component :: rest => do
      let first ← name component
      let others ← componentNames rest
      return first :: others

/-- The decision of `validate` on what `fstat` reports. -/
def checkMetadata (metadata : Metadata) (rootOwned directory isPrivate : Bool) :
    Except IoError Unit :=
  if directory ≠ metadata.isDir ∨ (directory = false ∧ metadata.isFile = false) then
    .error (invalid "trusted path has incorrect file type")
  else if rootOwned ∧ metadata.uid ≠ 0 then
    .error (invalid "trusted path has an untrusted owner (root required in production)")
  else if metadata.mode &&& (if isPrivate then 0x3f else 0x12) ≠ 0 then
    .error (invalid (if isPrivate then "trusted path must not grant group/world permissions"
      else "trusted path must not be group/world writable"))
  else
    .ok ()

def validate (file : File) (rootOwned directory isPrivate : Bool) : Routine IoError Unit := do
  let answer ← perform (.fstat file)
  let metadata ← orOsError answer
  .done (checkMetadata metadata rootOwned directory isPrivate)

/-- The loop of `open` over the names that are still to be looked up. -/
def descend (rootOwned directory isPrivate : Bool) :
    File -> List Bytes -> Routine IoError File
  | file, [] => pure file
  | file, component :: rest => do
      let last := rest.isEmpty
      let isDirectory := !last || directory
      let answer ← perform (.openat file component isDirectory)
      let child ← orOsError answer
      validate child rootOwned isDirectory (last && isPrivate)
      descend rootOwned directory isPrivate child rest

/-- The path itself, or the path below the current directory. -/
def absolutePath (path : Bytes) : Routine IoError Bytes := do
  if isAbsolute path then
    pure path
  else
    let answer ← perform .currentDir
    let base ← orOsError answer
    pure (joinPath base path)

/-- `trust::open`. -/
def openPath (path : Bytes) (rootOwned directory isPrivate : Bool) :
    Routine IoError File := do
  if rootOwned && !isAbsolute path then
    fail (invalid "production trusted paths must be absolute")
  else
    let absolute ← absolutePath path
    let names ← .done (componentNames (pathComponents absolute))
    let answer ← perform .openRoot
    let root ← orOsError answer
    validate root rootOwned true false
    let file ← descend rootOwned directory isPrivate root names
    validate file rootOwned directory isPrivate
    return file

/-! ## What the parts of a successful walk establish -/

theorem checkMetadata_eq_ok_iff
    {metadata : Metadata}
    {rootOwned directory isPrivate : Bool}
    {result : Unit} :
    checkMetadata metadata rootOwned directory isPrivate = .ok result ↔
      directory = metadata.isDir ∧ (directory = false -> metadata.isFile = true) ∧
        (rootOwned = true -> metadata.uid = 0) ∧
        metadata.mode &&& (if isPrivate then 0x3f else 0x12) = 0 := by
  unfold checkMetadata
  split
  · rename_i wrongType
    simp only [reduceCtorEq, false_iff]
    rintro ⟨typed, file, _⟩
    rcases wrongType with different | ⟨noDirectory, noFile⟩
    · exact different typed
    · simp [file noDirectory] at noFile
  · rename_i rightType
    rw [not_or, not_not, not_and, Bool.not_eq_false] at rightType
    split
    · rename_i untrusted
      simp [untrusted.1, untrusted.2]
    · rename_i trusted
      have owner : rootOwned = true -> metadata.uid = 0 := by
        intro production
        by_contra foreign
        exact trusted ⟨production, foreign⟩
      by_cases tight : metadata.mode &&& (if isPrivate then 0x3f else 0x12) = 0
      · rw [if_neg (not_not.mpr tight)]
        exact iff_of_true rfl ⟨rightType.1, rightType.2, owner, tight⟩
      · rw [if_pos tight]
        exact iff_of_false (by simp) fun passed => tight passed.2.2.2

theorem ends_validate_ok
    {file : File}
    {rootOwned directory isPrivate : Bool}
    {trace : List HelperEvent}
    {result : Unit} :
    Ends (validate file rootOwned directory isPrivate) trace (.ok result) ↔
      ∃ metadata, trace = [⟨.fstat file, .ok metadata⟩] ∧
        checkMetadata metadata rootOwned directory isPrivate = .ok result := by
  simp only [validate, ends_bind_ok, ends_perform, ends_orOsError_ok, ends_done]
  constructor
  · rintro ⟨_, _, _, rfl, ⟨_, rfl, answered⟩, _, _, metadata, rfl, ⟨rfl, rfl⟩, rfl, checked⟩
    obtain rfl := Except.ok.inj answered
    exact ⟨metadata, by simp, checked.symm⟩
  · rintro ⟨metadata, rfl, checked⟩
    exact ⟨[_], [], _, by simp, ⟨_, rfl, rfl⟩, [], [], metadata, rfl, ⟨rfl, rfl⟩, rfl,
      checked.symm⟩

/-- One round of the loop. -/
theorem ends_descend_cons_ok
    {rootOwned directory isPrivate : Bool}
    {file result : File}
    {component : Bytes}
    {rest : List Bytes}
    {trace : List HelperEvent} :
    Ends (descend rootOwned directory isPrivate file (component :: rest)) trace (.ok result) ↔
      ∃ child metadata later,
        trace = ⟨.openat file component (!rest.isEmpty || directory), .ok child⟩ ::
          ⟨.fstat child, .ok metadata⟩ :: later ∧
        checkMetadata metadata rootOwned (!rest.isEmpty || directory)
          (rest.isEmpty && isPrivate) = .ok () ∧
        Ends (descend rootOwned directory isPrivate child rest) later (.ok result) := by
  simp only [descend, ends_bind_ok, ends_perform, ends_orOsError_ok, ends_validate_ok]
  constructor
  · rintro ⟨_, _, _, rfl, ⟨_, rfl, answered⟩, _, _, child, rfl, ⟨rfl, rfl⟩, _, later, _, rfl,
      ⟨metadata, rfl, checked⟩, continued⟩
    obtain rfl := Except.ok.inj answered
    exact ⟨child, metadata, later, by simp, checked, continued⟩
  · rintro ⟨child, metadata, later, rfl, checked, continued⟩
    exact ⟨[_], _, _, rfl, ⟨_, rfl, rfl⟩, [], _, child, rfl, ⟨rfl, rfl⟩, [_], later, (), rfl,
      ⟨metadata, rfl, checked⟩, continued⟩

/-- A successful production walk, from the root directory to the final check. -/
theorem ends_openPath_ok
    {path : Bytes}
    {directory isPrivate : Bool}
    {file : File}
    {trace : List HelperEvent} :
    Ends (openPath path true directory isPrivate) trace (.ok file) ↔
      isAbsolute path = true ∧
        ∃ names root rootMetadata walk metadata,
          componentNames (pathComponents path) = .ok names ∧
          trace = ⟨.openRoot, .ok root⟩ :: ⟨.fstat root, .ok rootMetadata⟩ ::
            (walk ++ [⟨.fstat file, .ok metadata⟩]) ∧
          checkMetadata rootMetadata true true false = .ok () ∧
          Ends (descend true directory isPrivate root names) walk (.ok file) ∧
          checkMetadata metadata true directory isPrivate = .ok () := by
  cases absolute : isAbsolute path with
  | false => simp [openPath, absolute]
  | true =>
      simp only [openPath, absolutePath, absolute, Bool.not_true, Bool.and_false, Bool.false_eq_true,
        if_false, if_true, true_and]
      simp only [ends_bind_ok, ends_pure, ends_done, ends_perform, ends_orOsError_ok,
        ends_validate_ok]
      constructor
      · rintro ⟨_, _, _, rfl, ⟨rfl, _⟩, _, _, names, rfl, ⟨rfl, named⟩, _, _, _, rfl,
          ⟨_, rfl, answered⟩, _, _, root, rfl, ⟨rfl, rfl⟩, _, _, _, rfl,
          ⟨rootMetadata, rfl, rootChecked⟩, walk, _, reached, rfl, walked, _, _, _, rfl,
          ⟨metadata, rfl, checked⟩, rfl, returned⟩
        obtain rfl := Except.ok.inj returned
        exact ⟨names, root, rootMetadata, walk, metadata, by simp_all, by simp_all,
          rootChecked, walked, checked⟩
      · rintro ⟨names, root, rootMetadata, walk, metadata, named, rfl, rootChecked, walked,
          checked⟩
        exact ⟨[], _, path, rfl, ⟨rfl, rfl⟩, [], _, names, rfl, ⟨rfl, named.symm⟩, [_], _, _,
          rfl, ⟨_, rfl, rfl⟩, [], _, root, rfl, ⟨rfl, rfl⟩, [_], _, (), rfl,
          ⟨rootMetadata, rfl, rootChecked⟩, walk, _, file, rfl, walked, [_], [], (), by simp,
          ⟨metadata, rfl, checked⟩, rfl, rfl⟩

/-! ## Walking through a filesystem -/

/-- What `fstat` reports of an inode. -/
def metadataOf (inode : Unix.Inode) : Metadata where
  isDir := match inode.content with
    | .directory _ => true
    | _ => false
  isFile := match inode.content with
    | .regular _ => true
    | _ => false
  uid := inode.owner
  mode := inode.mode

/-- `openat` with `O_NOFOLLOW`, and with `O_DIRECTORY` if asked for, finds this
inode under the name. -/
def Finds
    (fs : Unix.Filesystem)
    (directory : File)
    (name : Bytes)
    (onlyDirectory : Bool)
    (file : File) : Prop :=
  ∃ parent entries inode, fs.inodes directory = some parent ∧
    parent.content = .directory entries ∧ entries name = some file ∧
    fs.inodes file = some inode ∧ (∀ target, inode.content ≠ .symlink target) ∧
    (onlyDirectory = true -> (metadataOf inode).isDir = true)

/-- Answers that agree with the filesystem. Every call may also fail, for instance
for want of resources. -/
def Answers (fs : Unix.Filesystem) : (request : Call) -> request.Answer -> Prop
  | .openRoot, .ok file => file = fs.root
  | .openat directory name onlyDirectory, .ok file =>
      Finds fs directory name onlyDirectory file
  | .fstat file, .ok metadata =>
      ∃ inode, fs.inodes file = some inode ∧ metadata = metadataOf inode
  | _, _ => True

/-- One process that reads the filesystem while it changes as `drifts` allows. -/
def walkSystem (drifts : Unix.Filesystem -> Unix.Filesystem -> Prop) :
    System Unit (fun _ => Call) (fun _ => Call.Answer) Unix.Filesystem where
  serves _ fs request answer fs' := Answers fs request answer ∧ fs' = fs
  drifts := drifts

/-- The process that opens a path in production mode. -/
def opener (path : Bytes) (directory isPrivate : Bool) :
    Pool (fun _ : Unit => Call) (fun _ => Call.Answer) (fun _ => IoError) (fun _ => File) :=
  fun _ => openPath path true directory isPrivate

section Untouched

variable {attacker : Unix.Credentials} {start : Unix.Filesystem}

/-- An inode that passes the production check is out of reach. -/
theorem not_reaches_of_checked
    (unprivileged : attacker.uid ≠ 0)
    {inode : Unix.Inode}
    {directory isPrivate : Bool}
    (checked : checkMetadata (metadataOf inode) true directory isPrivate = .ok ()) :
    ¬attacker.Reaches inode := by
  obtain ⟨_, _, owner, mode⟩ := checkMetadata_eq_ok_iff.mp checked
  have rootOwner : inode.owner = 0 := owner rfl
  have foreign : inode.owner ≠ attacker.uid := fun same => unprivileged (same ▸ rootOwner)
  rintro (owned | writable)
  · exact foreign owned
  · cases isPrivate with
    | false => exact Unix.Credentials.not_holds foreign mode (by decide) (by decide) writable
    | true => exact Unix.Credentials.not_holds foreign mode (by decide) (by decide) writable

/-- The answers of a trace agree with filesystems in which only inodes within the
attacker's reach differ from the start. -/
def Tampered (attacker : Unix.Credentials) (start : Unix.Filesystem)
    (trace : List HelperEvent) : Prop :=
  ∀ event ∈ trace, ∃ fs, Unix.ChangesReached attacker start fs ∧
    Answers fs event.call event.answer

/-- A check that succeeds saw the inode as it was at the start. -/
theorem untouched_of_checked
    (unprivileged : attacker.uid ≠ 0)
    {file : File}
    {metadata : Metadata}
    {directory isPrivate : Bool}
    {fs : Unix.Filesystem}
    (changes : Unix.ChangesReached attacker start fs)
    (answered : Answers fs (.fstat file) (.ok metadata))
    (checked : checkMetadata metadata true directory isPrivate = .ok ()) :
    ∃ inode, start.inodes file = some inode ∧ metadata = metadataOf inode ∧
      ¬attacker.Reaches inode := by
  obtain ⟨inode, present, rfl⟩ := answered
  have unreached := not_reaches_of_checked unprivileged checked
  exact ⟨inode, changes.kept present unreached, rfl, unreached⟩

/-- A name that is looked up in an untouched directory and leads to an inode that
is out of reach led there at the start. -/
theorem finds_at_start
    {directory file : File}
    {name : Bytes}
    {onlyDirectory : Bool}
    {fs : Unix.Filesystem}
    (changes : Unix.ChangesReached attacker start fs)
    (found : Finds fs directory name onlyDirectory file)
    {parent inode : Unix.Inode}
    (parentPresent : start.inodes directory = some parent)
    (parentUnreached : ¬attacker.Reaches parent)
    (present : start.inodes file = some inode)
    (unreached : ¬attacker.Reaches inode) :
    Finds start directory name onlyDirectory file := by
  obtain ⟨parentNow, entries, inodeNow, parentFound, listed, entry, inodeFound, followed,
    typed⟩ := found
  rw [changes.keeps parentPresent parentUnreached] at parentFound
  rw [changes.keeps present unreached] at inodeFound
  obtain rfl := Option.some.inj parentFound
  obtain rfl := Option.some.inj inodeFound
  exact ⟨parent, entries, inode, parentPresent, listed, entry, present, followed, typed⟩

/-- By induction over the remaining names: a walk that starts in an untouched
directory and succeeds reads the filesystem as it was at the start. -/
theorem descend_untouched
    (unprivileged : attacker.uid ≠ 0)
    {directory isPrivate : Bool}
    {names : List Bytes}
    {file result : File}
    {inode : Unix.Inode}
    (present : start.inodes file = some inode)
    (unreached : ¬attacker.Reaches inode)
    {trace : List HelperEvent}
    (ended : Ends (descend true directory isPrivate file names) trace (.ok result))
    (tampered : Tampered attacker start trace) :
    ∀ event ∈ trace, Answers start event.call event.answer := by
  induction names generalizing file inode trace with
  | nil =>
      obtain ⟨rfl, _⟩ := (ends_pure _ _ _).mp ended
      simp
  | cons component rest inductionHypothesis =>
      obtain ⟨child, metadata, later, rfl, checked, continued⟩ :=
        ends_descend_cons_ok.mp ended
      obtain ⟨openFs, openChanges, found⟩ := tampered _ List.mem_cons_self
      obtain ⟨statFs, statChanges, reported⟩ :=
        tampered ⟨.fstat child, .ok metadata⟩ (by simp)
      obtain ⟨childInode, childPresent, rfl, childUnreached⟩ :=
        untouched_of_checked unprivileged statChanges reported checked
      have lookedUp := finds_at_start openChanges found present unreached childPresent
        childUnreached
      have rest := inductionHypothesis childPresent childUnreached continued
        fun event member => tampered event (by simp [member])
      intro event member
      rcases List.mem_cons.mp member with rfl | member
      · exact lookedUp
      · rcases List.mem_cons.mp member with rfl | member
        · exact ⟨childInode, childPresent, rfl⟩
        · exact rest event member

/-- In an unchanging filesystem the names determine the result. -/
theorem descend_unique
    {fs : Unix.Filesystem}
    {directory isPrivate : Bool}
    {names : List Bytes}
    {file left right : File}
    {leftTrace rightTrace : List HelperEvent}
    (leftEnded : Ends (descend true directory isPrivate file names) leftTrace (.ok left))
    (rightEnded : Ends (descend true directory isPrivate file names) rightTrace (.ok right))
    (leftAnswers : ∀ event ∈ leftTrace, Answers fs event.call event.answer)
    (rightAnswers : ∀ event ∈ rightTrace, Answers fs event.call event.answer) :
    left = right := by
  induction names generalizing file leftTrace rightTrace with
  | nil =>
      have leftResult := ((ends_pure _ _ _).mp leftEnded).2
      have rightResult := ((ends_pure _ _ _).mp rightEnded).2
      rw [Except.ok.inj leftResult, Except.ok.inj rightResult]
  | cons component rest inductionHypothesis =>
      obtain ⟨leftChild, _, leftLater, rfl, _, leftContinued⟩ :=
        ends_descend_cons_ok.mp leftEnded
      obtain ⟨rightChild, _, rightLater, rfl, _, rightContinued⟩ :=
        ends_descend_cons_ok.mp rightEnded
      obtain ⟨_, leftEntries, _, leftParent, leftListed, leftEntry, _⟩ :=
        leftAnswers _ List.mem_cons_self
      obtain ⟨_, rightEntries, _, rightParent, rightListed, rightEntry, _⟩ :=
        rightAnswers _ List.mem_cons_self
      obtain rfl := Option.some.inj (leftParent.symm.trans rightParent)
      obtain rfl := Unix.Content.directory.inj (leftListed.symm.trans rightListed)
      obtain rfl := Option.some.inj (leftEntry.symm.trans rightEntry)
      exact inductionHypothesis leftContinued rightContinued
        (fun event member => leftAnswers event (by simp [member]))
        fun event member => rightAnswers event (by simp [member])

/-- A successful walk among tampered answers reads the filesystem as it was at the
start, and its result is out of reach. -/
theorem openPath_untouched
    (unprivileged : attacker.uid ≠ 0)
    {path : Bytes}
    {directory isPrivate : Bool}
    {file : File}
    {trace : List HelperEvent}
    (ended : Ends (openPath path true directory isPrivate) trace (.ok file))
    (tampered : Tampered attacker start trace) :
    (∀ event ∈ trace, Answers start event.call event.answer) ∧
      ∃ inode, start.inodes file = some inode ∧ ¬attacker.Reaches inode ∧
        (isPrivate = true -> ¬attacker.MayRead inode) := by
  obtain ⟨_, names, root, rootMetadata, walk, metadata, _, rfl, rootChecked, walked,
    checked⟩ := ends_openPath_ok.mp ended
  obtain ⟨rootFs, rootChanges, rootOpened⟩ := tampered ⟨.openRoot, .ok root⟩ (by simp)
  obtain ⟨statFs, statChanges, rootReported⟩ :=
    tampered ⟨.fstat root, .ok rootMetadata⟩ (by simp)
  obtain ⟨rootInode, rootPresent, rfl, rootUnreached⟩ :=
    untouched_of_checked unprivileged statChanges rootReported rootChecked
  have walkAnswers := descend_untouched unprivileged rootPresent rootUnreached walked
    fun event member => tampered event (by simp [member])
  obtain ⟨finalFs, finalChanges, reported⟩ :=
    tampered ⟨.fstat file, .ok metadata⟩ (by simp)
  obtain ⟨inode, present, rfl, unreached⟩ :=
    untouched_of_checked unprivileged finalChanges reported checked
  constructor
  · intro event member
    simp only [List.mem_cons, List.mem_append, List.not_mem_nil, or_false] at member
    rcases member with rfl | rfl | member | rfl
    · exact Eq.trans rootOpened rootChanges.1
    · exact ⟨rootInode, rootPresent, rfl⟩
    · exact walkAnswers event member
    · exact ⟨inode, present, rfl⟩
  · refine ⟨inode, present, unreached, fun isPrivate_eq => ?_⟩
    subst isPrivate_eq
    obtain ⟨_, _, owner, mode⟩ := checkMetadata_eq_ok_iff.mp checked
    have rootOwner : inode.owner = 0 := owner rfl
    exact Unix.Credentials.not_holds (fun same => unprivileged (same ▸ rootOwner)) mode
      (by decide) (by decide)

theorem openPath_unique
    {fs : Unix.Filesystem}
    {path : Bytes}
    {directory isPrivate : Bool}
    {left right : File}
    {leftTrace rightTrace : List HelperEvent}
    (leftEnded : Ends (openPath path true directory isPrivate) leftTrace (.ok left))
    (rightEnded : Ends (openPath path true directory isPrivate) rightTrace (.ok right))
    (leftAnswers : ∀ event ∈ leftTrace, Answers fs event.call event.answer)
    (rightAnswers : ∀ event ∈ rightTrace, Answers fs event.call event.answer) :
    left = right := by
  obtain ⟨_, leftNames, leftRoot, _, leftWalk, _, leftNamed, rfl, _, leftWalked, _⟩ :=
    ends_openPath_ok.mp leftEnded
  obtain ⟨_, rightNames, rightRoot, _, rightWalk, _, rightNamed, rfl, _, rightWalked, _⟩ :=
    ends_openPath_ok.mp rightEnded
  obtain rfl := Except.ok.inj (leftNamed.symm.trans rightNamed)
  have leftRoot_eq : leftRoot = fs.root := leftAnswers _ List.mem_cons_self
  have rightRoot_eq : rightRoot = fs.root := rightAnswers _ List.mem_cons_self
  subst leftRoot_eq rightRoot_eq
  exact descend_unique leftWalked rightWalked
    (fun event member => leftAnswers event (by simp [member]))
    fun event member => rightAnswers event (by simp [member])

/-- Every answer of a run agrees with a filesystem to which the start is related,
for a relation that the changes of the filesystem extend. -/
theorem answers_of_run
    {drifts : Unix.Filesystem -> Unix.Filesystem -> Prop}
    (related : Unix.Filesystem -> Unix.Filesystem -> Prop)
    (refl : related start start)
    (extend : ∀ {fs fs'}, related start fs -> drifts fs fs' -> related start fs')
    {programs pool : Pool (fun _ : Unit => Call) (fun _ => Call.Answer) (fun _ => IoError)
      (fun _ => File)}
    {history : List (Entry (fun _ : Unit => Call) fun _ => Call.Answer)}
    {fs : Unix.Filesystem}
    (run : (walkSystem drifts).Run programs start history pool fs) :
    related start fs ∧ ∀ event ∈ traceOf () history,
      ∃ fs, related start fs ∧ Answers fs event.call event.answer := by
  induction run with
  | start => exact ⟨refl, by simp⟩
  | @step history pool before after thread request next answer _ _ served
      inductionHypothesis =>
      obtain ⟨reached, answers⟩ := inductionHypothesis
      obtain ⟨agrees, rfl⟩ := served
      refine ⟨reached, ?_⟩
      intro event member
      rw [traceOf_append, traceOf_own, List.mem_append, List.mem_singleton] at member
      rcases member with earlier | rfl
      · exact answers event earlier
      · exact ⟨after, reached, agrees⟩
  | drift _ changed inductionHypothesis =>
      exact ⟨extend inductionHypothesis.1 changed, inductionHypothesis.2⟩

end Untouched

/-- Opening a path in production mode beside an attacker: a walk that returns an
inode returns the one that a walk without the attacker returns, and from then on the
attacker can neither change it nor, if it is private, read it. -/
theorem openPath_immune
    (attacker : Unix.Credentials)
    (unprivileged : attacker.uid ≠ 0)
    (path : Bytes)
    (directory isPrivate : Bool)
    (start fs : Unix.Filesystem)
    (history : List (Entry (fun _ : Unit => Call) fun _ => Call.Answer))
    (pool : Pool (fun _ : Unit => Call) (fun _ => Call.Answer) (fun _ => IoError)
      (fun _ => File))
    (run : (walkSystem (Unix.Acts attacker)).Run (opener path directory isPrivate) start
      history pool fs)
    (file : File)
    (returned : pool () = .done (.ok file)) :
    (∃ quietHistory quietPool,
      (walkSystem fun _ _ => False).Run (opener path directory isPrivate) start quietHistory
          quietPool start ∧
        quietPool () = .done (.ok file)) ∧
      (∀ quietHistory quietPool quietFs other,
        (walkSystem fun _ _ => False).Run (opener path directory isPrivate) start quietHistory
          quietPool quietFs ->
        quietPool () = .done (.ok other) -> other = file) ∧
      ∃ inode, fs.inodes file = some inode ∧
        ∀ later, Relation.ReflTransGen (Unix.Acts attacker) fs later ->
          later.inodes file = some inode ∧
            (isPrivate = true -> ¬attacker.MayRead inode) := by
  obtain ⟨changes, tampered⟩ := answers_of_run (Unix.ChangesReached attacker) (.refl _)
    (fun changes acts => changes.trans acts.changesReached) run
  have ended : Ends (openPath path true directory isPrivate) (traceOf () history)
      (.ok file) := by
    have steps := run.steps ()
    rw [returned] at steps
    exact steps
  obtain ⟨answers, inode, present, unreached, hidden⟩ :=
    openPath_untouched unprivileged ended tampered
  refine ⟨?_, ?_, inode, changes.keeps present unreached, ?_⟩
  · have steps : Steps (opener path directory isPrivate ()) (traceOf () history)
        (.done (.ok file)) :=
      ended
    have untouched : (walkSystem fun _ _ => False).Run (opener path directory isPrivate)
        start [] (opener path directory isPrivate) start :=
      .start
    exact ⟨_, _, untouched.alone steps (System.servesAll_of_unchanged fun event member =>
      ⟨answers event member, rfl⟩), by simp⟩
  · intro quietHistory quietPool quietFs other quietRun quietReturned
    have quietSteps := quietRun.steps ()
    rw [quietReturned] at quietSteps
    obtain ⟨_, quietAnswers⟩ := answers_of_run Eq rfl
      (fun _ changed => changed.elim) quietRun
    refine openPath_unique quietSteps ended (fun event member => ?_) answers
    obtain ⟨_, rfl, agrees⟩ := quietAnswers event member
    exact agrees
  · intro later actions
    exact ⟨(Unix.changesReached_of_actions actions).keeps (changes.keeps present unreached)
      unreached, hidden⟩

/-- The path `/k` leads to a private key of root. Beside it lies a file of the user
1000, who changes its mode before the walk. -/
def sampleFilesystem (mode : UInt32) : Unix.Filesystem where
  inodes
    | 0 => some ⟨0, 0, 0x1ed, .directory fun name =>
        if name = utf8 "k" then some 1 else if name = utf8 "u" then some 2 else none⟩
    | 1 => some ⟨0, 0, 0x180, .regular (utf8 "key")⟩
    | 2 => some ⟨1000, 1000, mode, .regular []⟩
    | _ => none
  root := 0

theorem openPath_immune_private_key :
    ∃ inode, (sampleFilesystem 0x1a4).inodes 1 = some inode ∧
      ∀ later, Relation.ReflTransGen (Unix.Acts ⟨1000, [1000]⟩) (sampleFilesystem 0x1a4) later ->
        later.inodes 1 = some inode ∧
          (true = true -> ¬Unix.Credentials.MayRead ⟨1000, [1000]⟩ inode) := by
  have started : (walkSystem (Unix.Acts ⟨1000, [1000]⟩)).Run (opener (utf8 "/k") false true)
      (sampleFilesystem 0x180) [] (opener (utf8 "/k") false true) (sampleFilesystem 0x180) :=
    .start
  have loosened : (sampleFilesystem 0x180).set 2 ⟨1000, 1000, 0x1a4, .regular []⟩ =
      sampleFilesystem 0x1a4 := by
    simp only [Unix.Filesystem.set, sampleFilesystem, Unix.Filesystem.mk.injEq, and_true]
    funext id
    rcases id with _ | _ | _ | id
    · rfl
    · rfl
    · rfl
    · simp
  have present : (sampleFilesystem 0x180).inodes 2 =
      some ⟨1000, 1000, 0x180, .regular []⟩ :=
    rfl
  have chmods : Unix.Acts ⟨1000, [1000]⟩ (sampleFilesystem 0x180)
      ((sampleFilesystem 0x180).set 2 ⟨1000, 1000, 0x1a4, .regular []⟩) :=
    .chmod present rfl
  rw [loosened] at chmods
  have changed := started.drift chmods
  have ended : Ends (openPath (utf8 "/k") true false true)
      [⟨.openRoot, .ok 0⟩, ⟨.fstat 0, .ok ⟨true, false, 0, 0x1ed⟩⟩,
        ⟨.openat 0 (utf8 "k") false, .ok 1⟩, ⟨.fstat 1, .ok ⟨false, true, 0, 0x180⟩⟩,
        ⟨.fstat 1, .ok ⟨false, true, 0, 0x180⟩⟩] (.ok 1) :=
    ends_openPath_ok.mpr ⟨by decide, [utf8 "k"], 0, _, [_, _], _, by decide, rfl, by decide,
      ends_descend_cons_ok.mpr ⟨1, _, [], rfl, by decide, (ends_pure _ _ _).mpr ⟨rfl, rfl⟩⟩,
      by decide⟩
  have steps : Steps (opener (utf8 "/k") false true ()) _ (.done (.ok 1)) := ended
  have walked := changed.alone steps (System.servesAll_of_unchanged (by
    simp only [List.mem_cons, List.not_mem_nil, or_false, forall_eq_or_imp, forall_eq]
    refine ⟨⟨rfl, rfl⟩, ⟨⟨_, rfl, rfl⟩, rfl⟩, ⟨?_, rfl⟩, ⟨⟨_, rfl, rfl⟩, rfl⟩,
      ⟨⟨_, rfl, rfl⟩, rfl⟩⟩
    exact ⟨_, _, _, rfl, rfl, by decide, rfl, by simp, by simp⟩))
  exact (openPath_immune ⟨1000, [1000]⟩ (by decide) (utf8 "/k") false true _ _ _ _ walked 1
    (by simp)).2.2

end Trust
end Helper
end MacosAuth
