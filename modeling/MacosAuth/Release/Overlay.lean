import MacosAuth.Unix.PathStore

/-!
# The overlay of a development snapshot

A development snapshot starts as an archive of the last commit. The loop of `snapshot` then
goes over the paths that `git ls-files` lists, takes each one away from the snapshot and
copies it anew from the working tree.

As long as the loop removes and copies nothing through a symbolic link, the result is the
working tree exactly when every committed path is listed and none of the listed files takes
the place of a committed directory. A file that takes the place of a directory is copied into
the directory, and what is neither listed nor in the working tree any more stays.
-/

namespace MacosAuth
namespace Release

open Unix Unix.PathStore

/-- A prefix of a path ends in its first or in its second part. -/
theorem prefix_append_cases
    {front first second : Path}
    (isPrefix : front <+: first ++ second) :
    front <+: first ∨ ∃ below, front = first ++ below ∧ below <+: second := by
  rcases List.prefix_or_prefix_of_prefix isPrefix (List.prefix_append first second) with
    above | ⟨below, rfl⟩
  · exact .inl above
  · exact .inr ⟨below, rfl, (List.prefix_append_right_inj first).mp isPrefix⟩

/-- What is above the last part of a path. -/
theorem exists_rest_of_prefix_dropLast
    {above name : Path}
    (isPrefix : above <+: name.dropLast)
    (nonempty : name ≠ []) :
    ∃ part rest, name = above ++ part :: rest := by
  obtain ⟨more, split⟩ := isPrefix
  have whole : name = above ++ (more ++ [name.getLast nonempty]) := by
    rw [← List.append_assoc, split, List.dropLast_append_getLast]
  cases more with
  | nil => exact ⟨_, [], whole⟩
  | cons part rest => exact ⟨part, rest ++ [name.getLast nonempty], whole⟩

/-! ## The code -/

/-- The destination is taken away if it is a link or a file. -/
def clearDestination (store : PathStore) (destination : Path) : Option PathStore :=
  if store.isSymlinkOrFile destination then store.unlink destination else some store

/-- What the loop does for one listed name. -/
def overlayName (repo source : Path) (store : PathStore) (name : Path) : Option PathStore :=
  if name = [] then
    some store
  else
    let original := repo ++ name
    let destination := source ++ name
    do
      let cleared ← clearDestination store destination
      if cleared.isSymlinkOrFile original then
        let made ← cleared.makeDirectories source name.dropLast
        made.copy original destination
      else
        some cleared

/-- The loop over the listed names. It ends early if an operation fails. -/
def overlay (repo source : Path) (store : PathStore) : List Path -> Option PathStore
  | [] => some store
  | name :: rest => do
      let next ← overlayName repo source store name
      overlay repo source next rest

/-! ## What it should do -/

/-- The working tree, and the archive that has been extracted for the snapshot. -/
structure Workspace where
  store : PathStore
  repo : Path
  source : Path
  closed : store.Closed
  repoDirectory : store repo = some .directory
  sourceDirectory : store source = some .directory
  repoNames : ∀ part ∈ repo, IsName part
  sourceNames : ∀ part ∈ source, IsName part

namespace Workspace

/-- What lies at a relative path of the working tree. -/
def working (workspace : Workspace) (name : Path) : Option Entry :=
  workspace.store (workspace.repo ++ name)

/-- What lies at a relative path of the archive. -/
def committed (workspace : Workspace) (name : Path) : Option Entry :=
  workspace.store (workspace.source ++ name)

/-- Paths as `git ls-files` prints them. The snapshot is not a part of the working tree. -/
structure Lists (workspace : Workspace) (names : List Path) : Prop where
  nonempty : ∀ name ∈ names, name ≠ []
  proper : ∀ name ∈ names, ∀ part ∈ name, IsName part
  outside : ∀ name ∈ names, ¬workspace.source <+: workspace.repo ++ name

/-- The snapshot has exactly the listed files and links of the working tree. -/
def Equals (workspace : Workspace) (names : List Path) (after : PathStore) : Prop :=
  ∀ name entry, entry.IsLeaf ->
    (after (workspace.source ++ name) = some entry ↔
      name ∈ names ∧ workspace.working name = some entry)

/-- Every committed file or link is listed. -/
def CommittedListed (workspace : Workspace) (names : List Path) : Prop :=
  ∀ name entry, workspace.committed name = some entry -> entry.IsLeaf -> name ∈ names

/-- No listed file or link of the working tree takes the place of a committed directory. -/
def NoDirectoryReplaced (workspace : Workspace) (names : List Path) : Prop :=
  ∀ name ∈ names, ∀ entry, workspace.working name = some entry -> entry.IsLeaf ->
    workspace.committed name ≠ some .directory

/-- What the step for this name removes or copies, if anything, and where it copies to, is in
directories that are reached without a symbolic link. -/
structure ActsInPlace (repo source : Path) (store : PathStore) (name : Path) : Prop where
  unlinks : store.isSymlinkOrFile (source ++ name) = true ->
    store.Plain (source ++ name).dropLast
  copies (cleared : PathStore) :
    clearDestination store (source ++ name) = some cleared ->
    cleared.isSymlinkOrFile (repo ++ name) = true ->
    cleared.Plain (repo ++ name).dropLast ∧ cleared.Plain (source ++ name).dropLast

/-- No step of the loop acts through a symbolic link. -/
def NoLinkPassed (workspace : Workspace) (names : List Path) : Prop :=
  ∀ before name later store, names = before ++ name :: later ->
    overlay workspace.repo workspace.source workspace.store before = some store ->
    ActsInPlace workspace.repo workspace.source store name

/-- What the snapshot is after the names that have been handled. -/
structure Invariant (workspace : Workspace) (handled : List Path) (now : PathStore) : Prop where
  closed : now.Closed
  outside : ∀ path, ¬workspace.source <+: path -> now path = workspace.store path
  leaf : ∀ name entry, entry.IsLeaf ->
    (now (workspace.source ++ name) = some entry ↔
      if name ∈ handled then workspace.working name = some entry
      else workspace.committed name = some entry)
  directory : ∀ name, now (workspace.source ++ name) = some .directory ->
    workspace.committed name = some .directory ∨ workspace.working name = some .directory
  keeps : workspace.store.KeepsDirectories now

variable {workspace : Workspace} {handled : List Path} {now : PathStore} {name : Path}

/-! ## One name -/

theorem dropLast_append_name (root : Path) (nonempty : name ≠ []) :
    (root ++ name).dropLast = root ++ name.dropLast :=
  List.dropLast_append_of_ne_nil nonempty

theorem names_append
    {root : Path}
    (rootNames : ∀ part ∈ root, IsName part)
    (names : ∀ part ∈ name, IsName part) :
    ∀ part ∈ root ++ name, IsName part := by
  intro part member
  rcases List.mem_append.mp member with inRoot | inName
  · exact rootNames part inRoot
  · exact names part inName

/-- The first half of a step: the listed path holds no file and no link any more. -/
structure Cleared (now cleared : PathStore) (place : Path) : Prop where
  closed : cleared.Closed
  noLeaf : ∀ entry, entry.IsLeaf -> cleared place ≠ some entry
  kept : ∀ path, path ≠ place -> cleared path = now path
  directory : cleared place = some .directory ↔ now place = some .directory

theorem Invariant.clear
    {cleared : PathStore}
    (invariant : workspace.Invariant handled now)
    (nonempty : name ≠ [])
    (names : ∀ part ∈ name, IsName part)
    (inPlace : now.isSymlinkOrFile (workspace.source ++ name) = true ->
      now.Plain (workspace.source ++ name).dropLast)
    (completes : clearDestination now (workspace.source ++ name) = some cleared) :
    Cleared now cleared (workspace.source ++ name) := by
  have someParts : workspace.source ++ name ≠ [] := by simp [nonempty]
  have allNames := names_append workspace.sourceNames names
  unfold clearDestination at completes
  by_cases found : now.isSymlinkOrFile (workspace.source ++ name) = true
  · have plain := inPlace found
    obtain ⟨entry, present, leaf⟩ :=
      (isSymlinkOrFile_of_plain invariant.closed plain someParts allNames).mp found
    rw [if_pos found, unlink_of_plain invariant.closed plain someParts present leaf] at completes
    obtain rfl := Option.some.inj completes
    have noDirectory : now (workspace.source ++ name) ≠ some .directory := by
      intro directory
      obtain rfl := Option.some.inj (present.symm.trans directory)
      exact leaf
    refine ⟨invariant.closed.remove noDirectory, ?_, fun path other => ?_, ?_⟩
    · intro other _ still
      rw [Function.update_self] at still
      cases still
    · exact Function.update_of_ne other _ _
    · rw [Function.update_self]
      exact ⟨fun gone => (nomatch gone), fun directory => absurd directory noDirectory⟩
  · rw [if_neg found] at completes
    obtain rfl := Option.some.inj completes
    exact ⟨invariant.closed, fun entry leaf present => found
      (invariant.closed.isSymlinkOrFile_of_found someParts allNames present leaf),
      fun _ _ => rfl, Iff.rfl⟩

section Step

variable {cleared : PathStore}

theorem Cleared.plain
    {path place : Path}
    (clears : Cleared now cleared place)
    (plain : now.Plain path) :
    cleared.Plain path := by
  refine ⟨plain.names, fun front isPrefix target link => ?_⟩
  by_cases same : front = place
  · subst same
    exact clears.noLeaf (.symlink target) trivial link
  · rw [clears.kept front same] at link
    exact plain.noLinks front isPrefix target link

theorem Cleared.keepsDirectories
    {place : Path}
    (clears : Cleared now cleared place) :
    now.KeepsDirectories cleared := by
  intro path directory
  by_cases same : path = place
  · subst same
    exact clears.directory.mpr directory
  · rwa [clears.kept path same]

theorem source_append_ne {other : Path} (different : other ≠ name) :
    workspace.source ++ other ≠ workspace.source ++ name :=
  fun equal => different (List.append_cancel_left equal)

/-- A listed path at which the working tree has no file and no link. -/
theorem Invariant.step_missing
    (invariant : workspace.Invariant handled now)
    (clears : Cleared now cleared (workspace.source ++ name))
    (noLeaf : ∀ entry, entry.IsLeaf -> workspace.working name ≠ some entry) :
    workspace.Invariant (handled ++ [name]) cleared where
  closed := clears.closed
  outside := by
    intro path outside
    have other : path ≠ workspace.source ++ name := by
      rintro rfl
      exact outside (List.prefix_append _ _)
    rw [clears.kept path other, invariant.outside path outside]
  leaf := by
    intro other entry leaf
    by_cases same : other = name
    · subst same
      rw [if_pos (by simp)]
      exact ⟨fun present => absurd present (clears.noLeaf entry leaf),
        fun present => absurd present (noLeaf entry leaf)⟩
    · rw [clears.kept _ (source_append_ne same), invariant.leaf other entry leaf]
      simp [same]
  directory := by
    intro other directory
    by_cases same : other = name
    · subst same
      exact invariant.directory other (clears.directory.mp directory)
    · rw [clears.kept _ (source_append_ne same)] at directory
      exact invariant.directory other directory
  keeps := invariant.keeps.trans clears.keepsDirectories

/-- A listed path at which the working tree has a file or a link. -/
theorem Invariant.step_copied
    {made : PathStore}
    {entry : Entry}
    (invariant : workspace.Invariant handled now)
    (clears : Cleared now cleared (workspace.source ++ name))
    (nonempty : name ≠ [])
    (present : workspace.working name = some entry)
    (leaf : entry.IsLeaf)
    (closed : made.Closed)
    (difference : cleared.MadeOn made workspace.source (workspace.source ++ name.dropLast))
    (inDirectory : made (workspace.source ++ name).dropLast = some .directory)
    (missing : made (workspace.source ++ name) = none) :
    workspace.Invariant (handled ++ [name])
      (Function.update made (workspace.source ++ name) (some entry)) where
  closed := closed.add missing inDirectory
  outside := by
    intro path outside
    have other : path ≠ workspace.source ++ name := by
      rintro rfl
      exact outside (List.prefix_append _ _)
    rw [Function.update_of_ne other]
    rcases difference path with same | ⟨below, _⟩
    · rw [same, clears.kept path other, invariant.outside path outside]
    · exact absurd below outside
  leaf := by
    intro other found isLeaf
    by_cases same : other = name
    · subst same
      rw [Function.update_self, if_pos (by simp), present]
    · rw [Function.update_of_ne (source_append_ne same)]
      have unchanged : made (workspace.source ++ other) = some found ↔
          now (workspace.source ++ other) = some found := by
        rw [← clears.kept _ (source_append_ne same)]
        rcases difference (workspace.source ++ other) with equal | ⟨_, _, none, directory⟩
        · rw [equal]
        · rw [none, directory]
          constructor
          · intro equal
            obtain rfl := Option.some.inj equal
            exact isLeaf.elim
          · exact fun impossible => nomatch impossible
      rw [unchanged, invariant.leaf other found isLeaf]
      simp [same]
  directory := by
    intro other directory
    by_cases same : other = name
    · subst same
      rw [Function.update_self] at directory
      obtain rfl := Option.some.inj directory
      exact leaf.elim
    · rw [Function.update_of_ne (source_append_ne same)] at directory
      rcases difference (workspace.source ++ other) with equal | ⟨_, within, _, _⟩
      · rw [equal, clears.kept _ (source_append_ne same)] at directory
        exact invariant.directory other directory
      · obtain ⟨part, rest, split⟩ := exists_rest_of_prefix_dropLast
          ((List.prefix_append_right_inj _).mp within) nonempty
        rw [split, working, ← List.append_assoc] at present
        exact .inr (workspace.closed.directory_of_append present)
  keeps := by
    have kept : cleared.KeepsDirectories made := by
      intro path directory
      rcases difference path with same | ⟨_, _, none, _⟩
      · rwa [same]
      · exact nomatch none.symm.trans directory
    exact ((invariant.keeps.trans clears.keepsDirectories).trans kept).trans
      (keepsDirectories_update (by simp [missing]))

/-- A step of the loop. -/
theorem Invariant.step
    {next : PathStore}
    (invariant : workspace.Invariant handled now)
    (nonempty : name ≠ [])
    (names : ∀ part ∈ name, IsName part)
    (outside : ¬workspace.source <+: workspace.repo ++ name)
    (acts : ActsInPlace workspace.repo workspace.source now name)
    (notReplaced : ∀ entry, workspace.working name = some entry -> entry.IsLeaf ->
      workspace.committed name ≠ some .directory)
    (completes : overlayName workspace.repo workspace.source now name = some next) :
    workspace.Invariant (handled ++ [name]) next := by
  rw [overlayName, if_neg nonempty] at completes
  simp only [Option.bind_eq_bind, Option.bind_eq_some_iff] at completes
  obtain ⟨cleared, clearing, completes⟩ := completes
  have clears := invariant.clear nonempty names acts.unlinks clearing
  have elsewhere : workspace.repo ++ name ≠ workspace.source ++ name := by
    intro equal
    exact outside (equal ▸ List.prefix_append _ _)
  have original : cleared (workspace.repo ++ name) = workspace.working name := by
    rw [clears.kept _ elsewhere, invariant.outside _ outside, working]
  have originalNonempty : workspace.repo ++ name ≠ [] := by simp [nonempty]
  have originalNames := names_append workspace.repoNames names
  by_cases copies : cleared.isSymlinkOrFile (workspace.repo ++ name) = true
  · obtain ⟨plainOriginal, plainDestination⟩ := acts.copies cleared clearing copies
    obtain ⟨entry, present, leaf⟩ :=
      (isSymlinkOrFile_of_plain clears.closed plainOriginal originalNonempty originalNames).mp
        copies
    rw [original] at present
    rw [dropLast_append_name _ nonempty] at plainDestination
    rw [if_pos copies, Option.bind_eq_some_iff] at completes
    obtain ⟨made, making, copying⟩ := completes
    have noDirectory : cleared (workspace.source ++ name) ≠ some .directory := by
      intro directory
      rcases invariant.directory name (clears.directory.mp directory) with committed | working
      · exact notReplaced entry present leaf committed
      · obtain rfl := Option.some.inj (present.symm.trans working)
        exact leaf.elim
    have gone : cleared (workspace.source ++ name) = none := by
      cases found : cleared (workspace.source ++ name) with
      | none => rfl
      | some other =>
          cases other with
          | directory => exact absurd found noDirectory
          | file mode content => exact absurd found (clears.noLeaf (.file mode content) trivial)
          | symlink target => exact absurd found (clears.noLeaf (.symlink target) trivial)
    have sourceHere : cleared workspace.source = some .directory :=
      clears.keepsDirectories _ (invariant.keeps _ workspace.sourceDirectory)
    obtain ⟨inDirectory, closed, difference⟩ :=
      makeDirectories_of_plain clears.closed plainDestination sourceHere making
    have missing : made (workspace.source ++ name) = none := by
      rcases difference (workspace.source ++ name) with same | ⟨_, within, _, _⟩
      · exact same.trans gone
      · have shorter := ((List.prefix_append_right_inj _).mp within).length_le
        have positive := List.length_pos_of_ne_nil nonempty
        rw [List.length_dropLast] at shorter
        omega
    have stillThere : made (workspace.repo ++ name) = some entry := by
      rcases difference (workspace.repo ++ name) with same | ⟨below, _⟩
      · rw [same, original, present]
      · exact absurd below outside
    rw [← dropLast_append_name _ nonempty] at inDirectory
    have destinationNonempty : workspace.source ++ name ≠ [] := by simp [nonempty]
    have last := List.getLast?_eq_some_getLast destinationNonempty
    have plainAbove : made.Plain (workspace.source ++ name).dropLast := by
      rw [dropLast_append_name _ nonempty]
      exact plainDestination.of_madeOn difference
    have plain := plainAbove.of_dropLast last
      (names_append workspace.sourceNames names _ (List.getLast_mem destinationNonempty))
      (by simp [missing])
    rw [copy_of_plain closed (plainOriginal.of_madeOn difference) originalNonempty originalNames
      stillThere leaf plain destinationNonempty inDirectory missing] at copying
    obtain rfl := Option.some.inj copying
    exact invariant.step_copied clears nonempty present leaf closed difference inDirectory missing
  · rw [if_neg copies] at completes
    obtain rfl := Option.some.inj completes
    exact invariant.step_missing clears fun entry leaf present => copies
      (clears.closed.isSymlinkOrFile_of_found originalNonempty originalNames
        (original.trans present) leaf)

end Step

/-! ## The whole loop -/

theorem invariant_nil : workspace.Invariant [] workspace.store where
  closed := workspace.closed
  outside := fun _ _ => rfl
  leaf := fun name entry _ => by
    rw [if_neg List.not_mem_nil]
    rfl
  directory := fun _ => .inl
  keeps := fun _ => id

/-- Induction over the names that are left. -/
theorem Invariant.run
    {names : List Path}
    {after : PathStore}
    (invariant : workspace.Invariant handled now)
    (lists : workspace.Lists names)
    (acts : ∀ before name later store, names = before ++ name :: later ->
      overlay workspace.repo workspace.source now before = some store ->
      ActsInPlace workspace.repo workspace.source store name)
    (notReplaced : workspace.NoDirectoryReplaced names)
    (completes : overlay workspace.repo workspace.source now names = some after) :
    workspace.Invariant (handled ++ names) after := by
  induction names generalizing handled now with
  | nil =>
      obtain rfl := Option.some.inj completes
      rwa [List.append_nil]
  | cons name rest inductionHypothesis =>
      rw [overlay, Option.bind_eq_bind, Option.bind_eq_some_iff] at completes
      obtain ⟨next, stepped, completes⟩ := completes
      have first : ActsInPlace workspace.repo workspace.source now name :=
        acts [] name rest now rfl rfl
      have step := invariant.step (lists.nonempty name List.mem_cons_self)
        (lists.proper name List.mem_cons_self) (lists.outside name List.mem_cons_self) first
        (notReplaced name List.mem_cons_self) stepped
      rw [List.append_cons]
      refine inductionHypothesis step ⟨?_, ?_, ?_⟩ ?_ ?_ completes
      · exact fun other member => lists.nonempty other (List.mem_cons_of_mem _ member)
      · exact fun other member => lists.proper other (List.mem_cons_of_mem _ member)
      · exact fun other member => lists.outside other (List.mem_cons_of_mem _ member)
      · intro before other later store split reached
        refine acts (name :: before) other later store (by rw [split, List.cons_append]) ?_
        rw [overlay, stepped]
        exact reached
      · exact fun other member => notReplaced other (List.mem_cons_of_mem _ member)

/-! ## Paths without links -/

/-- The path does not lead through a symbolic link: not in the working tree, and not in the
archive unless the link has been handled before. -/
def PassesNoLink (workspace : Workspace) (handled : List Path) (name : Path) : Prop :=
  ∀ above part rest, name = above ++ part :: rest ->
    (∀ target, workspace.working above ≠ some (.symlink target)) ∧
    ∀ target, workspace.committed above = some (.symlink target) -> above ∈ handled

/-- The listed path in the snapshot does not lead through a link. -/
theorem Invariant.plain_destination
    (invariant : workspace.Invariant handled now)
    (nonempty : name ≠ [])
    (names : ∀ part ∈ name, IsName part)
    (noLink : workspace.PassesNoLink handled name) :
    now.Plain (workspace.source ++ name.dropLast) := by
  constructor
  · intro part member
    rcases List.mem_append.mp member with inSource | inName
    · exact workspace.sourceNames part inSource
    · exact names part (List.dropLast_subset name inName)
  · intro front isPrefix target link
    rcases prefix_append_cases isPrefix with above | ⟨above, rfl, within⟩
    · have directory := invariant.keeps _
        (workspace.closed.directory_of_prefix above workspace.sourceDirectory)
      exact nomatch directory.symm.trans link
    · obtain ⟨part, rest, split⟩ := exists_rest_of_prefix_dropLast within nonempty
      obtain ⟨notWorking, listed⟩ := noLink above part rest split
      have leaf := (invariant.leaf above (.symlink target) trivial).mp link
      by_cases isHandled : above ∈ handled
      · rw [if_pos isHandled] at leaf
        exact notWorking target leaf
      · rw [if_neg isHandled] at leaf
        exact isHandled (listed target leaf)

/-- The listed path in the working tree does not lead through a link. -/
theorem Invariant.plain_original
    (invariant : workspace.Invariant handled now)
    (nonempty : name ≠ [])
    (names : ∀ part ∈ name, IsName part)
    (outside : ¬workspace.source <+: workspace.repo ++ name)
    (noLink : workspace.PassesNoLink handled name) :
    now.Plain (workspace.repo ++ name.dropLast) := by
  constructor
  · intro part member
    rcases List.mem_append.mp member with inRepo | inName
    · exact workspace.repoNames part inRepo
    · exact names part (List.dropLast_subset name inName)
  · intro front isPrefix target link
    rcases prefix_append_cases isPrefix with above | ⟨above, rfl, within⟩
    · have directory := invariant.keeps _
        (workspace.closed.directory_of_prefix above workspace.repoDirectory)
      exact nomatch directory.symm.trans link
    · obtain ⟨part, rest, split⟩ := exists_rest_of_prefix_dropLast within nonempty
      have elsewhere : ¬workspace.source <+: workspace.repo ++ above := by
        intro inSnapshot
        refine outside (inSnapshot.trans ?_)
        rw [split, ← List.append_assoc]
        exact List.prefix_append _ _
      rw [invariant.outside _ elsewhere] at link
      exact (noLink above part rest split).1 target link

theorem Invariant.actsInPlace
    (invariant : workspace.Invariant handled now)
    (nonempty : name ≠ [])
    (names : ∀ part ∈ name, IsName part)
    (outside : ¬workspace.source <+: workspace.repo ++ name)
    (noLink : workspace.PassesNoLink handled name) :
    ActsInPlace workspace.repo workspace.source now name := by
  have plainDestination := invariant.plain_destination nonempty names noLink
  have plainOriginal := invariant.plain_original nonempty names outside noLink
  rw [← dropLast_append_name _ nonempty] at plainDestination plainOriginal
  refine ⟨fun _ => plainDestination, fun cleared clearing _ => ?_⟩
  have clears := invariant.clear nonempty names (fun _ => plainDestination) clearing
  exact ⟨clears.plain plainOriginal, clears.plain plainDestination⟩

/-- Induction over the names before the step in question. -/
theorem Invariant.actsInPlace_after
    {before later : List Path}
    {store : PathStore}
    (invariant : workspace.Invariant handled now)
    (lists : workspace.Lists (before ++ name :: later))
    (noLink : ∀ front next rest, before ++ name :: later = front ++ next :: rest ->
      workspace.PassesNoLink (handled ++ front) next)
    (notReplaced : workspace.NoDirectoryReplaced (before ++ name :: later))
    (reached : overlay workspace.repo workspace.source now before = some store) :
    ActsInPlace workspace.repo workspace.source store name := by
  induction before generalizing handled now with
  | nil =>
      obtain rfl := Option.some.inj reached
      have first : workspace.PassesNoLink handled name := by
        simpa using noLink [] name later rfl
      exact invariant.actsInPlace (lists.nonempty name List.mem_cons_self)
        (lists.proper name List.mem_cons_self) (lists.outside name List.mem_cons_self) first
  | cons head before inductionHypothesis =>
      rw [overlay, Option.bind_eq_bind, Option.bind_eq_some_iff] at reached
      obtain ⟨next, stepped, reached⟩ := reached
      have first : workspace.PassesNoLink handled head := by
        simpa using noLink [] head (before ++ name :: later) rfl
      have nonempty := lists.nonempty head List.mem_cons_self
      have proper := lists.proper head List.mem_cons_self
      have outside := lists.outside head List.mem_cons_self
      have step := invariant.step nonempty proper outside
        (invariant.actsInPlace nonempty proper outside first)
        (notReplaced head List.mem_cons_self) stepped
      refine inductionHypothesis step ⟨?_, ?_, ?_⟩ ?_ ?_ reached
      · exact fun other member => lists.nonempty other (List.mem_cons_of_mem _ member)
      · exact fun other member => lists.proper other (List.mem_cons_of_mem _ member)
      · exact fun other member => lists.outside other (List.mem_cons_of_mem _ member)
      · intro front other rest split
        rw [List.append_assoc, List.singleton_append]
        exact noLink (head :: front) other rest (by rw [List.cons_append, split, List.cons_append])
      · exact fun other member => notReplaced other (List.mem_cons_of_mem _ member)

/-- If no listed path leads through a link, no step acts through one. -/
theorem noLinkPassed_of_passesNoLink
    {names : List Path}
    (lists : workspace.Lists names)
    (notReplaced : workspace.NoDirectoryReplaced names)
    (noLink : ∀ before name later, names = before ++ name :: later ->
      workspace.PassesNoLink before name) :
    workspace.NoLinkPassed names := by
  intro before name later store split reached
  subst split
  exact invariant_nil.actsInPlace_after lists
    (fun front next rest same => by simpa using noLink front next rest same) notReplaced reached

/-! ## The result -/

/-- The loop never removes a directory. -/
theorem keepsDirectories_overlay
    {repo source : Path}
    {store after : PathStore}
    {names : List Path}
    (completes : overlay repo source store names = some after) :
    store.KeepsDirectories after := by
  induction names generalizing store with
  | nil =>
      obtain rfl := Option.some.inj completes
      exact fun _ => id
  | cons name rest inductionHypothesis =>
      rw [overlay, Option.bind_eq_bind, Option.bind_eq_some_iff] at completes
      obtain ⟨next, stepped, completes⟩ := completes
      refine KeepsDirectories.trans ?_ (inductionHypothesis completes)
      unfold overlayName at stepped
      split at stepped
      · obtain rfl := Option.some.inj stepped
        exact fun _ => id
      · simp only [Option.bind_eq_bind, Option.bind_eq_some_iff] at stepped
        obtain ⟨cleared, clearing, stepped⟩ := stepped
        have first : store.KeepsDirectories cleared := by
          unfold clearDestination at clearing
          split at clearing
          · exact keepsDirectories_unlink clearing
          · obtain rfl := Option.some.inj clearing
            exact fun _ => id
        refine first.trans ?_
        split at stepped
        · obtain ⟨made, making, copying⟩ := Option.bind_eq_some_iff.mp stepped
          exact (keepsDirectories_makeDirectories making).trans (keepsDirectories_copy copying)
        · obtain rfl := Option.some.inj stepped
          exact fun _ => id

/-- Where no step acts through a link, the snapshot equals the working tree exactly when every
committed path is listed and no committed directory has been replaced. The latter is necessary
in any case. -/
theorem overlay_equals_iff_of_noLinkPassed
    (workspace : Workspace)
    (names : List Path)
    (after : PathStore)
    (lists : workspace.Lists names)
    (completes : overlay workspace.repo workspace.source workspace.store names = some after) :
    (workspace.NoLinkPassed names ->
      (workspace.Equals names after ↔
        workspace.CommittedListed names ∧ workspace.NoDirectoryReplaced names)) ∧
    (workspace.Equals names after -> workspace.NoDirectoryReplaced names) := by
  have necessary (equals : workspace.Equals names after) :
      workspace.NoDirectoryReplaced names := by
    intro name member entry present leaf directory
    have still := keepsDirectories_overlay completes _ directory
    have copied := (equals name entry leaf).mpr ⟨member, present⟩
    obtain rfl := Option.some.inj (copied.symm.trans still)
    exact leaf
  refine ⟨fun noLink => ⟨fun equals => ⟨?_, necessary equals⟩, ?_⟩, necessary⟩
  · intro name entry present leaf
    by_contra unlisted
    have invariant := invariant_nil.run lists noLink (necessary equals) completes
    have stays := (invariant.leaf name entry leaf).mpr (by rwa [List.nil_append, if_neg unlisted])
    exact unlisted ((equals name entry leaf).mp stays).1
  · rintro ⟨listed, notReplaced⟩ name entry leaf
    have invariant := invariant_nil.run lists noLink notReplaced completes
    rw [invariant.leaf name entry leaf, List.nil_append]
    by_cases member : name ∈ names
    · rw [if_pos member]
      exact ⟨fun present => ⟨member, present⟩, And.right⟩
    · rw [if_neg member]
      exact ⟨fun present => absurd (listed name entry present leaf) member,
        fun both => absurd both.1 member⟩

/-! ## A file in the place of a directory -/

/-- The last commit has the file `d/x`, and the working tree has a file `d`. -/
def replacedDirectory : Workspace where
  store := ofEntries [
    ([], .directory),
    (["repo"], .directory),
    (["repo", "d"], .file 0o644 [0x31]),
    (["source"], .directory),
    (["source", "d"], .directory),
    (["source", "d", "x"], .file 0o644 [0x30])]
  repo := ["repo"]
  source := ["source"]
  closed := closed_ofEntries (by decide) (by decide)
  repoDirectory := by decide
  sourceDirectory := by decide
  repoNames := by simp [IsName]
  sourceNames := by simp [IsName]

def replacedNames : List Path := [["d"], ["d", "x"]]

theorem lists_replacedNames : replacedDirectory.Lists replacedNames where
  nonempty := by decide
  proper := by simp [replacedNames, IsName]
  outside := by decide

/-- The file is copied into the directory. -/
theorem overlay_replacedDirectory :
    (overlay ["repo"] ["source"] replacedDirectory.store replacedNames).map
        (fun after => (after ["source", "d"], after ["source", "d", "d"])) =
      some (some .directory, some (.file 0o644 [0x31])) := by
  decide

/-- A file in the place of a directory is missing from the snapshot. -/
theorem overlay_not_equals :
    replacedDirectory.Lists replacedNames ∧
      ¬∀ after, overlay ["repo"] ["source"] replacedDirectory.store replacedNames = some after ->
        replacedDirectory.Equals replacedNames after := by
  refine ⟨lists_replacedNames, fun claim => ?_⟩
  obtain ⟨after, completes, found⟩ := Option.map_eq_some_iff.mp overlay_replacedDirectory
  have equals := (claim after completes ["d"] (.file 0o644 [0x31]) trivial).mpr
    ⟨by decide, by decide⟩
  have directory : after ["source", "d"] = some .directory := congrArg Prod.fst found
  exact nomatch equals.symm.trans directory

/-! ## A link that nothing is reached through -/

/-- The last commit is empty, `d/x` has been staged, and in the working tree `d` is now a link
that leads nowhere. -/
def danglingLink : Workspace where
  store := ofEntries [
    ([], .directory),
    (["repo"], .directory),
    (["repo", "d"], .symlink ["missing"]),
    (["source"], .directory)]
  repo := ["repo"]
  source := ["source"]
  closed := closed_ofEntries (by decide) (by decide)
  repoDirectory := by decide
  sourceDirectory := by decide
  repoNames := by simp [IsName]
  sourceNames := by simp [IsName]

theorem lists_danglingLink : danglingLink.Lists replacedNames where
  nonempty := by decide
  proper := by simp [replacedNames, IsName]
  outside := by decide

/-- At the second name the link is on the way, but nothing is found behind it. -/
theorem overlay_danglingLink :
    (overlay ["repo"] ["source"] danglingLink.store [["d"]]).map (fun store =>
        (store.isSymlinkOrFile ["source", "d", "x"], store.isSymlinkOrFile ["repo", "d", "x"])) =
      some (false, false) := by
  decide

theorem noLinkPassed_danglingLink : danglingLink.NoLinkPassed replacedNames := by
  intro before name later store split reached
  rcases before with _ | ⟨head, _ | ⟨second, rest⟩⟩
  · obtain ⟨rfl, -⟩ := List.cons.inj split
    obtain rfl := Option.some.inj reached
    have missing : danglingLink.store.isSymlinkOrFile ["source", "d"] = false := by decide
    refine ⟨fun found => Bool.noConfusion (missing.symm.trans found),
      fun cleared clearing _ => ?_⟩
    have same : clearDestination danglingLink.store ["source", "d"] = some danglingLink.store :=
      if_neg (by simp [missing])
    obtain rfl := Option.some.inj (same.symm.trans clearing)
    exact ⟨danglingLink.closed.plain_of_directory danglingLink.repoNames (by decide),
      danglingLink.closed.plain_of_directory danglingLink.sourceNames (by decide)⟩
  · obtain ⟨rfl, others⟩ := List.cons.inj split
    obtain ⟨rfl, -⟩ := List.cons.inj others
    have found := overlay_danglingLink
    rw [show overlay ["repo"] ["source"] danglingLink.store [["d"]] = some store from reached,
      Option.map_some] at found
    obtain ⟨noDestination, noOriginal⟩ := Prod.mk.inj (Option.some.inj found)
    refine ⟨fun here => Bool.noConfusion (noDestination.symm.trans here),
      fun cleared clearing here => ?_⟩
    have same : clearDestination store ["source", "d", "x"] = some store :=
      if_neg (by simp [noDestination])
    obtain rfl := Option.some.inj (same.symm.trans clearing)
    exact nomatch noOriginal.symm.trans here
  · exact absurd (congrArg List.length split) (by simp [replacedNames])

/-- The snapshot has the link and nothing else, as the working tree. -/
theorem overlay_equals_danglingLink :
    ∃ after, overlay ["repo"] ["source"] danglingLink.store replacedNames = some after ∧
      danglingLink.Equals replacedNames after := by
  have isSome : (overlay ["repo"] ["source"] danglingLink.store replacedNames).isSome := by decide
  obtain ⟨after, completes⟩ := Option.isSome_iff_exists.mp isSome
  refine ⟨after, completes, ((overlay_equals_iff_of_noLinkPassed danglingLink replacedNames after
    lists_danglingLink completes).1 noLinkPassed_danglingLink).mpr ⟨?_, ?_⟩⟩
  · intro name entry present leaf
    cases name with
    | nil =>
        obtain rfl := Option.some.inj (danglingLink.sourceDirectory.symm.trans present)
        exact leaf.elim
    | cons part rest => simp [committed, danglingLink, ofEntries, List.lookup_cons] at present
  · have noDirectory : ∀ name ∈ replacedNames, danglingLink.committed name ≠ some .directory := by
      decide
    exact fun name member _ _ _ => noDirectory name member

end Workspace

end Release
end MacosAuth
