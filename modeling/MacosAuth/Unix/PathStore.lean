import Mathlib.Data.List.Basic
import Mathlib.Logic.Function.Basic

/-!
# Files by their paths

A store maps paths without links, from the root, to what is found there. Other paths are
walked through: a symbolic link on the way is replaced by its target, and the last part may
be missing. The operations are those of a script on one machine, with the errors that its
library reports.

On a path below which no link lies, walking changes nothing, and the operations act at the
path itself.
-/

namespace Unix

/-- The parts of a path from the root. -/
abbrev Path := List String

inductive Entry
  | file (mode : Nat) (content : List UInt8)
  | symlink (target : List String)
  | directory
  deriving DecidableEq

/-- Files and symbolic links. -/
def Entry.IsLeaf : Entry -> Prop
  | .directory => False
  | _ => True

instance : DecidablePred Entry.IsLeaf
  | .file _ _ => isTrue trivial
  | .symlink _ => isTrue trivial
  | .directory => isFalse id

/-- What is found at the paths. The root is a directory. -/
abbrev PathStore := Path -> Option Entry

namespace PathStore

/-! ## Walking -/

/-- Walk on from a directory. `follow` walks on after a link. -/
def walkParts (store : PathStore) (follow : Path -> List String -> Option Path) :
    Path -> List String -> Option Path
  | here, [] => some here
  | here, part :: rest =>
      if part = "" ∨ part = "." then
        store.walkParts follow here rest
      else if part = ".." then
        store.walkParts follow here.dropLast rest
      else
        match store (here ++ [part]) with
        | some (.symlink target) =>
            follow (if target.head? = some "" then [] else here) (target ++ rest)
        | some .directory => store.walkParts follow (here ++ [part]) rest
        | _ => if rest = [] then some (here ++ [part]) else none

/-- Walk through at most the given number of links. -/
def walk (store : PathStore) : Nat -> Path -> List String -> Option Path
  | 0 => store.walkParts fun _ _ => none
  | links + 1 => store.walkParts (store.walk links)

/-- Where a path leads when its last part is followed too. -/
def landing (store : PathStore) (path : Path) : Option Path :=
  store.walk 40 [] path

/-- What a path leads to. -/
def stat (store : PathStore) (path : Path) : Option Entry :=
  (store.landing path).bind store

/-- The place of a path whose last part is not followed. -/
def place (store : PathStore) (path : Path) : Option Path := do
  let name ← path.getLast?
  let directory ← store.landing path.dropLast
  if store directory = some .directory then some (directory ++ [name]) else none

/-- What lies at a path. -/
def lstat (store : PathStore) (path : Path) : Option Entry :=
  (store.place path).bind store

def isDirectory (store : PathStore) (path : Path) : Bool :=
  store.stat path == some .directory

/-- `Path.is_symlink() or Path.is_file()`. -/
def isSymlinkOrFile (store : PathStore) (path : Path) : Bool :=
  match store.lstat path with
  | some (.symlink _) => true
  | _ =>
      match store.stat path with
      | some (.file _ _) => true
      | _ => false

/-! ## Operations -/

/-- `Path.unlink()`. -/
def unlink (store : PathStore) (path : Path) : Option PathStore := do
  let place ← store.place path
  match store place with
  | none => none
  | some .directory => none
  | some _ => some (Function.update store place none)

/-- `Path.mkdir(exist_ok=True)` in a directory that exists. -/
def makeDirectory (store : PathStore) (path : Path) : Option PathStore :=
  if store.isDirectory path then
    some store
  else do
    let place ← store.place path
    if store place = none then
      some (Function.update store place (some .directory))
    else
      none

/-- `Path.mkdir(parents=True, exist_ok=True)`, from the directory that is reached down. -/
def makeDirectories (store : PathStore) : Path -> List String -> Option PathStore
  | _, [] => some store
  | here, part :: rest => do
      let made ← store.makeDirectory (here ++ [part])
      makeDirectories made (here ++ [part]) rest

/-- `os.symlink`. -/
def makeSymlink (store : PathStore) (target : List String) (path : Path) : Option PathStore := do
  let place ← store.place path
  if store place = none then
    some (Function.update store place (some (.symlink target)))
  else
    none

/-- Open for writing, write, and set the mode. -/
def writeFile (store : PathStore) (mode : Nat) (content : List UInt8) (path : Path) :
    Option PathStore := do
  let landing ← store.landing path
  match store landing with
  | some .directory => none
  | some (.symlink _) => none
  | _ => some (Function.update store landing (some (.file mode content)))

/-- `shutil.copyfile(original, destination, follow_symlinks=False)`, with the mode. -/
def copyFile (store : PathStore) (original destination : Path) : Option PathStore :=
  if (store.stat destination).isSome ∧ store.landing original = store.landing destination then
    none
  else
    match store.lstat original with
    | some (.symlink target) => store.makeSymlink target destination
    | _ =>
        match store.stat original with
        | some (.file mode content) => store.writeFile mode content destination
        | _ => none

/-- `shutil.copy2(original, destination, follow_symlinks=False)`. Into a directory, a copy
goes under the name of the original. -/
def copy (store : PathStore) (original destination : Path) : Option PathStore :=
  store.copyFile original <|
    if store.isDirectory destination then
      destination ++ original.getLast?.toList
    else
      destination

/-! ## Stores that are trees -/

/-- Whatever has a place lies in a directory, and the root is one. -/
structure Closed (store : PathStore) : Prop where
  root : store [] = some .directory
  parent : ∀ path part entry, store (path ++ [part]) = some entry -> store path = some .directory

/-- The parts that stand for themselves. -/
def IsName (part : String) : Prop :=
  part ≠ "" ∧ part ≠ "." ∧ part ≠ ".."

/-- A path of names on which no link lies. -/
structure Plain (store : PathStore) (path : Path) : Prop where
  names : ∀ part ∈ path, IsName part
  noLinks : ∀ front, front <+: path -> ∀ target, store front ≠ some (.symlink target)

variable {store : PathStore} {path : Path}

theorem Plain.of_prefix
    {front : Path}
    (plain : store.Plain path)
    (isPrefix : front <+: path) :
    store.Plain front :=
  ⟨fun part member => plain.names part (isPrefix.subset member),
    fun other otherPrefix => plain.noLinks other (otherPrefix.trans isPrefix)⟩

/-- Induction over what follows: every directory above an entry is one. -/
theorem Closed.directory_of_append
    {front : Path}
    {part : String}
    {rest : List String}
    {entry : Entry}
    (closed : store.Closed)
    (found : store (front ++ part :: rest) = some entry) :
    store front = some .directory := by
  induction rest generalizing front part entry with
  | nil => exact closed.parent front part entry found
  | cons next rest inductionHypothesis =>
      rw [← List.singleton_append, ← List.append_assoc] at found
      exact closed.parent front part _ (inductionHypothesis found)

theorem Closed.directory_of_prefix
    {front : Path}
    (closed : store.Closed)
    (isPrefix : front <+: path)
    (directory : store path = some .directory) :
    store front = some .directory := by
  obtain ⟨rest, rfl⟩ := isPrefix
  cases rest with
  | nil => simpa using directory
  | cons part rest => exact closed.directory_of_append directory

/-- Induction over the parts that remain: without links, walking goes straight on. -/
theorem walkParts_eq_of_plain
    {follow : Path -> List String -> Option Path}
    {here : Path}
    {rest : List String}
    {result : Path}
    (plain : store.Plain (here ++ rest))
    (walked : store.walkParts follow here rest = some result) :
    result = here ++ rest := by
  induction rest generalizing here with
  | nil =>
      rw [List.append_nil]
      exact (Option.some.inj walked).symm
  | cons part rest inductionHypothesis =>
      have split : here ++ part :: rest = (here ++ [part]) ++ rest := by simp
      obtain ⟨notEmpty, notDot, notDots⟩ := plain.names part (by simp)
      rw [walkParts, if_neg (by simp [notEmpty, notDot]), if_neg notDots] at walked
      have noLink := plain.noLinks (here ++ [part]) (split ▸ List.prefix_append _ _)
      rw [split] at plain ⊢
      split at walked
      · rename_i target link
        exact absurd link (noLink target)
      · exact inductionHypothesis plain walked
      · split at walked
        · rename_i last
          rw [last, List.append_nil]
          exact (Option.some.inj walked).symm
        · cases walked

/-- Induction over the parts that remain: what lies in a directory is reached, also when it
is missing. -/
theorem walkParts_of_plain
    {follow : Path -> List String -> Option Path}
    {here : Path}
    {rest : List String}
    (closed : store.Closed)
    (plain : store.Plain (here ++ rest))
    (inDirectory : store (here ++ rest).dropLast = some .directory) :
    store.walkParts follow here rest = some (here ++ rest) := by
  induction rest generalizing here with
  | nil => rw [walkParts, List.append_nil]
  | cons part rest inductionHypothesis =>
      have split : here ++ part :: rest = (here ++ [part]) ++ rest := by simp
      obtain ⟨notEmpty, notDot, notDots⟩ := plain.names part (by simp)
      rw [walkParts, if_neg (by simp [notEmpty, notDot]), if_neg notDots]
      have noLink := plain.noLinks (here ++ [part]) (split ▸ List.prefix_append _ _)
      rw [split] at plain inDirectory ⊢
      have onTheWay : rest ≠ [] -> store (here ++ [part]) = some .directory := by
        intro more
        refine closed.directory_of_prefix ?_ inDirectory
        rw [List.dropLast_append_of_ne_nil more]
        exact List.prefix_append _ _
      split
      · rename_i target link
        exact absurd link (noLink target)
      · exact inductionHypothesis plain inDirectory
      · rename_i noDirectory
        by_cases last : rest = []
        · rw [if_pos last, last, List.append_nil]
        · exact absurd (onTheWay last) noDirectory

theorem landing_eq_of_plain
    {result : Path}
    (plain : store.Plain path)
    (landed : store.landing path = some result) :
    result = path :=
  @walkParts_eq_of_plain _ _ [] _ _ plain landed

theorem landing_of_plain
    (closed : store.Closed)
    (plain : store.Plain path)
    (inDirectory : store path.dropLast = some .directory) :
    store.landing path = some path :=
  @walkParts_of_plain _ _ [] _ closed plain inDirectory

theorem dropLast_append_getLast {last : String} (isLast : path.getLast? = some last) :
    path.dropLast ++ [last] = path :=
  List.dropLast_append_getLast? last isLast

theorem Closed.dropLast
    {entry : Entry}
    (closed : store.Closed)
    (found : store path = some entry)
    (nonempty : path ≠ []) :
    store path.dropLast = some .directory := by
  rw [← List.dropLast_append_getLast nonempty] at found
  exact closed.parent _ _ _ found

/-- Without links above it, a path has its own place if it lies in a directory. -/
theorem place_of_plain
    (closed : store.Closed)
    (plain : store.Plain path.dropLast)
    (nonempty : path ≠ []) :
    store.place path = if store path.dropLast = some .directory then some path else none := by
  have last : path.getLast? = some (path.getLast nonempty) := List.getLast?_eq_some_getLast nonempty
  unfold place
  rw [last, Option.bind_eq_bind, Option.bind_some]
  by_cases inDirectory : store path.dropLast = some .directory
  · have landed : store.landing path.dropLast = some path.dropLast := by
      by_cases empty : path.dropLast = []
      · rw [empty]
        rfl
      · exact landing_of_plain closed plain (closed.dropLast inDirectory empty)
    rw [landed, Option.bind_eq_bind, Option.bind_some, if_pos inDirectory, if_pos inDirectory,
      dropLast_append_getLast last]
  · rw [if_neg inDirectory]
    cases landed : store.landing path.dropLast with
    | none => rfl
    | some result =>
        rw [landing_eq_of_plain plain landed, Option.bind_eq_bind, Option.bind_some,
          if_neg inDirectory]

theorem lstat_of_plain
    (closed : store.Closed)
    (plain : store.Plain path.dropLast)
    (nonempty : path ≠ []) :
    store.lstat path = store path := by
  rw [lstat, place_of_plain closed plain nonempty]
  by_cases inDirectory : store path.dropLast = some .directory
  · rw [if_pos inDirectory, Option.bind_some]
  · rw [if_neg inDirectory, Option.bind_none]
    cases found : store path with
    | none => rfl
    | some entry => exact absurd (closed.dropLast found nonempty) inDirectory

theorem stat_of_plain
    (closed : store.Closed)
    (plain : store.Plain path)
    (nonempty : path ≠ []) :
    store.stat path = store path := by
  unfold stat
  cases landed : store.landing path with
  | some result =>
      rw [landing_eq_of_plain plain landed]
      rfl
  | none =>
      cases found : store path with
      | none => rfl
      | some entry =>
          have reached := landing_of_plain closed plain (closed.dropLast found nonempty)
          exact nomatch landed.symm.trans reached

theorem isDirectory_of_plain
    (closed : store.Closed)
    (plain : store.Plain path)
    (nonempty : path ≠ []) :
    store.isDirectory path = true ↔ store path = some .directory := by
  rw [isDirectory, stat_of_plain closed plain nonempty, beq_iff_eq]

/-- A path that is not a link itself. -/
theorem Plain.of_dropLast
    {last : String}
    (plain : store.Plain path.dropLast)
    (isLast : path.getLast? = some last)
    (isName : IsName last)
    (noLink : ∀ target, store path ≠ some (.symlink target)) :
    store.Plain path := by
  have split := dropLast_append_getLast isLast
  constructor
  · intro part member
    rw [← split] at member
    rcases List.mem_append.mp member with earlier | here
    · exact plain.names part earlier
    · rw [List.mem_singleton.mp here]
      exact isName
  · intro front isPrefix
    rw [← split] at isPrefix
    rcases List.prefix_concat_iff.mp isPrefix with whole | earlier
    · rw [whole, split]
      exact noLink
    · exact plain.noLinks front earlier

theorem isSymlinkOrFile_of_plain
    (closed : store.Closed)
    (plain : store.Plain path.dropLast)
    (nonempty : path ≠ [])
    (names : ∀ part ∈ path, IsName part) :
    store.isSymlinkOrFile path = true ↔ ∃ entry, store path = some entry ∧ entry.IsLeaf := by
  have last : path.getLast? = some (path.getLast nonempty) := List.getLast?_eq_some_getLast nonempty
  have whole := plain.of_dropLast last (names _ (List.getLast_mem nonempty))
  unfold isSymlinkOrFile
  rw [lstat_of_plain closed plain nonempty]
  cases found : store path with
  | none =>
      rw [stat_of_plain closed (whole (by simp [found])) nonempty, found]
      simp
  | some entry =>
      cases entry with
      | symlink target => simp [Entry.IsLeaf]
      | file mode content =>
          rw [stat_of_plain closed (whole (by simp [found])) nonempty, found]
          simp [Entry.IsLeaf]
      | directory =>
          rw [stat_of_plain closed (whole (by simp [found])) nonempty, found]
          simp [Entry.IsLeaf]

/-- Above a directory there are only directories. -/
theorem Closed.plain_of_directory
    (closed : store.Closed)
    (names : ∀ part ∈ path, IsName part)
    (directory : store path = some .directory) :
    store.Plain path := by
  refine ⟨names, fun front isPrefix target link => ?_⟩
  exact nomatch (closed.directory_of_prefix isPrefix directory).symm.trans link

theorem Closed.plain_dropLast
    {entry : Entry}
    (closed : store.Closed)
    (nonempty : path ≠ [])
    (names : ∀ part ∈ path, IsName part)
    (found : store path = some entry) :
    store.Plain path.dropLast :=
  closed.plain_of_directory (fun part member => names part (List.dropLast_subset path member))
    (closed.dropLast found nonempty)

theorem Closed.isSymlinkOrFile_of_found
    {entry : Entry}
    (closed : store.Closed)
    (nonempty : path ≠ [])
    (names : ∀ part ∈ path, IsName part)
    (found : store path = some entry)
    (leaf : entry.IsLeaf) :
    store.isSymlinkOrFile path = true :=
  (isSymlinkOrFile_of_plain closed (closed.plain_dropLast nonempty names found) nonempty names).mpr
    ⟨entry, found, leaf⟩

/-- The store of a list of entries. -/
def ofEntries (entries : List (Path × Entry)) : PathStore :=
  fun path => entries.lookup path

theorem closed_ofEntries
    {entries : List (Path × Entry)}
    (root : ofEntries entries [] = some .directory)
    (parents : ∀ entry ∈ entries, entry.1 = [] ∨
      ofEntries entries entry.1.dropLast = some .directory) :
    Closed (ofEntries entries) := by
  refine ⟨root, fun path part entry found => ?_⟩
  have listed : ∃ pair ∈ entries, pair.1 = path ++ [part] := by
    obtain ⟨before, after, split, _⟩ := List.lookup_eq_some_iff.mp found
    exact ⟨(path ++ [part], entry), by simp [split], rfl⟩
  obtain ⟨pair, member, same⟩ := listed
  rcases parents pair member with empty | directory
  · simp [same] at empty
  · rwa [same, List.dropLast_concat] at directory

/-! ## Operations at plain paths -/

/-- An entry that is not a directory may be removed. -/
theorem Closed.remove
    (closed : store.Closed)
    (leaf : store path ≠ some .directory) :
    Closed (Function.update store path none) := by
  have root : path ≠ [] := by
    rintro rfl
    exact leaf closed.root
  refine ⟨?_, ?_⟩
  · rw [Function.update_of_ne root.symm]
    exact closed.root
  · intro front part entry found
    have child : front ++ [part] ≠ path := by
      rintro rfl
      rw [Function.update_self] at found
      cases found
    rw [Function.update_of_ne child] at found
    have directory := closed.parent front part entry found
    have other : front ≠ path := by
      rintro rfl
      exact leaf directory
    rwa [Function.update_of_ne other]

/-- An entry may be added in a directory. -/
theorem Closed.add
    {entry : Entry}
    (closed : store.Closed)
    (missing : store path = none)
    (inDirectory : store path.dropLast = some .directory) :
    Closed (Function.update store path (some entry)) := by
  have root : path ≠ [] := by
    rintro rfl
    exact nomatch missing.symm.trans closed.root
  refine ⟨?_, ?_⟩
  · rw [Function.update_of_ne root.symm]
    exact closed.root
  · intro front part other found
    have directory : store front = some .directory := by
      by_cases child : front ++ [part] = path
      · rw [← child, List.dropLast_concat] at inDirectory
        exact inDirectory
      · rw [Function.update_of_ne child] at found
        exact closed.parent front part other found
    have kept : front ≠ path := by
      rintro rfl
      exact nomatch missing.symm.trans directory
    rwa [Function.update_of_ne kept]

theorem unlink_of_plain
    {entry : Entry}
    (closed : store.Closed)
    (plain : store.Plain path.dropLast)
    (nonempty : path ≠ [])
    (found : store path = some entry)
    (leaf : entry.IsLeaf) :
    store.unlink path = some (Function.update store path none) := by
  rw [unlink, place_of_plain closed plain nonempty, if_pos (closed.dropLast found nonempty),
    Option.bind_eq_bind, Option.bind_some, found]
  cases entry with
  | file mode content => rfl
  | symlink target => rfl
  | directory => exact leaf.elim

theorem makeDirectory_of_plain
    {made : PathStore}
    (closed : store.Closed)
    (plain : store.Plain path)
    (nonempty : path ≠ [])
    (inDirectory : store path.dropLast = some .directory)
    (completes : store.makeDirectory path = some made) :
    made path = some .directory ∧ made.Closed ∧
      ∀ other, made other = store other ∨
        (other = path ∧ store other = none ∧ made other = some .directory) := by
  unfold makeDirectory at completes
  by_cases directory : store path = some .directory
  · rw [if_pos ((isDirectory_of_plain closed plain nonempty).mpr directory)] at completes
    obtain rfl := Option.some.inj completes
    exact ⟨directory, closed, fun other => .inl rfl⟩
  · rw [if_neg fun isDirectory => directory
        ((isDirectory_of_plain closed plain nonempty).mp isDirectory),
      place_of_plain closed (plain.of_prefix (List.dropLast_prefix path)) nonempty,
      if_pos inDirectory, Option.bind_eq_bind, Option.bind_some] at completes
    split at completes
    · rename_i missing
      obtain rfl := Option.some.inj completes
      refine ⟨Function.update_self .., closed.add missing inDirectory, fun other => ?_⟩
      by_cases same : other = path
      · subst same
        exact .inr ⟨rfl, missing, Function.update_self ..⟩
      · exact .inl (Function.update_of_ne same _ _)
    · cases completes

/-- What differs after directories have been made: they were missing. -/
def MadeOn (store made : PathStore) (here path : Path) : Prop :=
  ∀ other, made other = store other ∨
    (here <+: other ∧ other <+: path ∧ store other = none ∧ made other = some .directory)

/-- Directories in the place of nothing put no links on a path. -/
theorem Plain.of_madeOn
    {made : PathStore}
    {here along : Path}
    (plain : store.Plain path)
    (difference : store.MadeOn made here along) :
    made.Plain path := by
  refine ⟨plain.names, fun front isPrefix target link => ?_⟩
  rcases difference front with same | ⟨_, _, _, directory⟩
  · exact plain.noLinks front isPrefix target (same.symm.trans link)
  · exact nomatch directory.symm.trans link

/-- Induction over the parts: each one is a directory afterwards. -/
theorem makeDirectories_of_plain
    {made : PathStore}
    {here : Path}
    {rest : List String}
    (closed : store.Closed)
    (plain : store.Plain (here ++ rest))
    (directory : store here = some .directory)
    (completes : store.makeDirectories here rest = some made) :
    made (here ++ rest) = some .directory ∧ made.Closed ∧
      store.MadeOn made here (here ++ rest) := by
  induction rest generalizing store here with
  | nil =>
      obtain rfl := Option.some.inj completes
      rw [List.append_nil]
      exact ⟨directory, closed, fun other => .inl rfl⟩
  | cons part rest inductionHypothesis =>
      have split : here ++ part :: rest = (here ++ [part]) ++ rest := by simp
      rw [makeDirectories, Option.bind_eq_bind, Option.bind_eq_some_iff] at completes
      obtain ⟨first, made_, completes⟩ := completes
      rw [split] at plain ⊢
      have below : here ++ [part] <+: here ++ [part] ++ rest := List.prefix_append _ _
      obtain ⟨isDirectory, stillClosed, firstDifference⟩ :=
        makeDirectory_of_plain closed (plain.of_prefix below) (by simp)
          (by rwa [List.dropLast_concat]) made_
      have difference : store.MadeOn first here (here ++ [part] ++ rest) := by
        intro other
        rcases firstDifference other with same | ⟨rfl, missing, isMade⟩
        · exact .inl same
        · exact .inr ⟨List.prefix_append _ _, below, missing, isMade⟩
      obtain ⟨reached, finallyClosed, later⟩ :=
        inductionHypothesis stillClosed (plain.of_madeOn difference) isDirectory completes
      refine ⟨reached, finallyClosed, fun other => ?_⟩
      rcases later other with same | ⟨above, within, missing, isMade⟩
      · rcases difference other with unchanged | ⟨above, within, missing, isMade⟩
        · exact .inl (same.trans unchanged)
        · exact .inr ⟨above, within, missing, same.trans isMade⟩
      · rcases difference other with unchanged | ⟨_, _, _, isFirst⟩
        · exact .inr ⟨(List.prefix_append _ _).trans above, within, unchanged ▸ missing, isMade⟩
        · exact nomatch missing.symm.trans isFirst

/-- A file or a link is copied to a place in a directory where nothing is. -/
theorem copy_of_plain
    {original : Path}
    {entry : Entry}
    (closed : store.Closed)
    (plainOriginal : store.Plain original.dropLast)
    (originalNonempty : original ≠ [])
    (originalNames : ∀ part ∈ original, IsName part)
    (found : store original = some entry)
    (leaf : entry.IsLeaf)
    (plain : store.Plain path)
    (nonempty : path ≠ [])
    (inDirectory : store path.dropLast = some .directory)
    (missing : store path = none) :
    store.copy original path = some (Function.update store path (some entry)) := by
  have noDirectory : ¬store.isDirectory path = true := by
    rw [isDirectory_of_plain closed plain nonempty, missing]
    exact fun impossible => nomatch impossible
  have noFile : store.stat path = none := (stat_of_plain closed plain nonempty).trans missing
  have own : store.place path = some path := by
    rw [place_of_plain closed (plain.of_prefix (List.dropLast_prefix path)) nonempty,
      if_pos inDirectory]
  have last : original.getLast? = some (original.getLast originalNonempty) :=
    List.getLast?_eq_some_getLast originalNonempty
  rw [copy, if_neg noDirectory, copyFile, if_neg (by simp [noFile]),
    lstat_of_plain closed plainOriginal originalNonempty, found]
  cases entry with
  | symlink target =>
      simp only [makeSymlink, own, Option.bind_eq_bind, Option.bind_some, missing, if_true]
  | file mode content =>
      have whole := plainOriginal.of_dropLast last
        (originalNames _ (List.getLast_mem originalNonempty)) (by simp [found])
      simp only [stat_of_plain closed whole originalNonempty, found, writeFile,
        landing_of_plain closed plain inDirectory, Option.bind_eq_bind, Option.bind_some, missing]
  | directory => exact leaf.elim

/-! ## Directories remain -/

/-- Every directory is still one. -/
def KeepsDirectories (store after : PathStore) : Prop :=
  ∀ path, store path = some .directory -> after path = some .directory

theorem keepsDirectories_update
    {entry : Option Entry}
    (other : store path ≠ some .directory) :
    store.KeepsDirectories (Function.update store path entry) := by
  intro front directory
  have kept : front ≠ path := by
    rintro rfl
    exact other directory
  rwa [Function.update_of_ne kept]

theorem KeepsDirectories.trans
    {middle after : PathStore}
    (first : store.KeepsDirectories middle)
    (second : middle.KeepsDirectories after) :
    store.KeepsDirectories after :=
  fun path directory => second path (first path directory)

theorem keepsDirectories_unlink
    {after : PathStore}
    (completes : store.unlink path = some after) :
    store.KeepsDirectories after := by
  rw [unlink, Option.bind_eq_bind, Option.bind_eq_some_iff] at completes
  obtain ⟨place, _, completes⟩ := completes
  split at completes
  · cases completes
  · cases completes
  · rename_i entry other found
    obtain rfl := Option.some.inj completes
    refine keepsDirectories_update fun directory => ?_
    exact other (Option.some.inj (found.symm.trans directory))

theorem keepsDirectories_makeDirectory
    {after : PathStore}
    (completes : store.makeDirectory path = some after) :
    store.KeepsDirectories after := by
  unfold makeDirectory at completes
  split at completes
  · obtain rfl := Option.some.inj completes
    exact fun _ => id
  · rw [Option.bind_eq_bind, Option.bind_eq_some_iff] at completes
    obtain ⟨place, _, completes⟩ := completes
    split at completes
    · rename_i missing
      obtain rfl := Option.some.inj completes
      exact keepsDirectories_update (by simp [missing])
    · cases completes

theorem keepsDirectories_makeDirectories
    {after : PathStore}
    {here : Path}
    {rest : List String}
    (completes : store.makeDirectories here rest = some after) :
    store.KeepsDirectories after := by
  induction rest generalizing store here with
  | nil =>
      obtain rfl := Option.some.inj completes
      exact fun _ => id
  | cons part rest inductionHypothesis =>
      rw [makeDirectories, Option.bind_eq_bind, Option.bind_eq_some_iff] at completes
      obtain ⟨first, made, completes⟩ := completes
      exact (keepsDirectories_makeDirectory made).trans (inductionHypothesis completes)

theorem keepsDirectories_copyFile
    {after : PathStore}
    {original : Path}
    (completes : store.copyFile original path = some after) :
    store.KeepsDirectories after := by
  unfold copyFile at completes
  split at completes
  · cases completes
  · split at completes
    · rw [makeSymlink, Option.bind_eq_bind, Option.bind_eq_some_iff] at completes
      obtain ⟨place, _, completes⟩ := completes
      split at completes
      · rename_i missing
        obtain rfl := Option.some.inj completes
        exact keepsDirectories_update (by simp [missing])
      · cases completes
    · split at completes
      · rw [writeFile, Option.bind_eq_bind, Option.bind_eq_some_iff] at completes
        obtain ⟨landing, _, completes⟩ := completes
        split at completes
        · cases completes
        · cases completes
        · rename_i noDirectory _
          obtain rfl := Option.some.inj completes
          exact keepsDirectories_update noDirectory
      · cases completes

theorem keepsDirectories_copy
    {after : PathStore}
    {original : Path}
    (completes : store.copy original path = some after) :
    store.KeepsDirectories after :=
  keepsDirectories_copyFile completes

end PathStore
end Unix
