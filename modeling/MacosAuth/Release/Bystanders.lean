import MacosAuth.Release.Refusal

/-!
# What a collection leaves alone

A collection writes and removes files with names of a release at the top of the output
directory. It also writes into a directory of such a name, where the file gets the same name
once more, and it makes the directories that lead to the work area. Everything else in the
output directory stays as it is at every depth, however the collection ends.

That is so unless the file in such a directory is a symbolic link, through which the copy would
be written to another place. A file has one name here: what a hard link shares with a file that
is written changes with it. What `git` itself writes, such as a refreshed index, is left out.
-/

namespace MacosAuth
namespace Release

open Codec (Bytes)
open Protocol (bind_eq_ok)

/-! ## Paths below an entry -/

/-- What a path below an entry leads to, links not followed. -/
def nodeAt : List String -> Option Node -> Option Node
  | [], node => node
  | name :: rest, some (.directory entries) => nodeAt rest (entries.dlookup name)
  | _ :: _, _ => none

/-- The output directory as one entry. -/
def treeOf (out : Option Directory) : Option Node :=
  out.map fun directory => .directory directory.entries

/-- What is at a path itself. What is in a directory and where a link leads is not part of
it: a link may lead to a file that is written under its own name. -/
inductive Surface
  | file (content : Bytes)
  | symlink
  | directory
  | special (writable : Bool)
  deriving DecidableEq

def Node.surface : Node -> Surface
  | .file content => .file content
  | .symlink _ => .symlink
  | .directory _ => .directory
  | .special writable => .special writable

def surfaceAt (path : List String) (node : Option Node) : Option Surface :=
  (nodeAt path node).map Node.surface

/-- What may happen at the paths below an entry. -/
structure Permission where
  /-- Something other than a directory may appear, change or go. -/
  written : List String -> Prop
  /-- A directory may be made. -/
  made : List String -> Prop
  /-- What there is may be taken away. -/
  removed : List String -> Prop

/-- The permission for an entry of a directory. -/
def Permission.below (permission : Permission) (name : String) : Permission where
  written rest := permission.written (name :: rest)
  made rest := permission.made (name :: rest)
  removed rest := permission.removed (name :: rest)

/-- Only what is permitted has happened below an entry. Directories stay in any case. -/
structure Keeps (permission : Permission) (before after : Option Node) : Prop where
  others : ∀ path surface, surface ≠ .directory -> ¬permission.written path ->
    (surfaceAt path after = some surface ↔ surfaceAt path before = some surface)
  /-- No link appears, and none is written through: its referent is what it led to before,
  and would then be another one. -/
  links : ∀ path referent, nodeAt path after = some (.symlink referent) ->
    nodeAt path before = some (.symlink referent)
  directories : ∀ path, reachesDirectory path before = true ->
    reachesDirectory path after = true
  added : ∀ path, reachesDirectory path after = true ->
    reachesDirectory path before = true ∨ permission.made path
  gone : ∀ path, nodeAt path after = none ->
    nodeAt path before = none ∨ permission.removed path

section Keeps

variable {permission : Permission} {before middle after : Option Node} {node : Node}

namespace Keeps

theorem refl (permission : Permission) (node : Option Node) : Keeps permission node node where
  others _ _ _ _ := Iff.rfl
  links _ _ := id
  directories _ reaches := reaches
  added _ reaches := .inl reaches
  gone _ absent := .inl absent

theorem trans
    (first : Keeps permission before middle)
    (second : Keeps permission middle after) :
    Keeps permission before after where
  others path surface isOther unwritten :=
    (second.others path surface isOther unwritten).trans
      (first.others path surface isOther unwritten)
  links path referent link := first.links path referent (second.links path referent link)
  directories path reaches := second.directories path (first.directories path reaches)
  added path reaches := (second.added path reaches).elim (first.added path) .inr
  gone path absent := (second.gone path absent).elim (first.gone path) .inr

/-- A directory is kept where each of its entries is. -/
theorem directory
    {entries others : List (Σ _ : String, Node)}
    (each : ∀ name, Keeps (permission.below name) (entries.dlookup name) (others.dlookup name)) :
    Keeps permission (some (.directory entries)) (some (.directory others)) where
  others
    | [], _, _, _ => Iff.rfl
    | name :: rest, surface, isOther, unwritten =>
        (each name).others rest surface isOther unwritten
  links
    | [], _, link => by cases link
    | name :: rest, referent, link => (each name).links rest referent link
  directories
    | [], _ => rfl
    | name :: rest, reaches => (each name).directories rest reaches
  added
    | [], _ => .inl rfl
    | name :: rest, reaches => (each name).added rest reaches
  gone
    | [], absent => by cases absent
    | name :: rest, absent => (each name).gone rest absent

end Keeps

/-- There is nothing below what is not a directory. -/
theorem nodeAt_cons_of_other
    (isOther : node.surface ≠ .directory)
    (name : String)
    (rest : List String) :
    nodeAt (name :: rest) (some node) = none := by
  cases node with
  | directory entries => exact absurd rfl isOther
  | file content => rfl
  | symlink referent => rfl
  | special writable => rfl

theorem reachesDirectory_of_other
    (isOther : node.surface ≠ .directory)
    (path : List String) :
    reachesDirectory path (some node) = false := by
  cases node with
  | directory entries => exact absurd rfl isOther
  | file content => cases path <;> rfl
  | symlink referent => cases path <;> rfl
  | special writable => cases path <;> rfl

theorem nodeAt_none (path : List String) : nodeAt path none = none := by
  cases path <;> rfl

theorem reachesDirectory_none (path : List String) : reachesDirectory path none = false := by
  cases path <;> rfl

/-- A file may be put where it may be written, unless there is a directory. -/
theorem Keeps.replaced
    {content : Bytes}
    (written : permission.written [])
    (wasOther : ∀ old, before = some old -> old.surface ≠ .directory) :
    Keeps permission before (some (.file content)) := by
  have unreached (path : List String) : reachesDirectory path before = false := by
    cases before with
    | none => exact reachesDirectory_none path
    | some old => exact reachesDirectory_of_other (wasOther old rfl) path
  have below (name : String) (rest : List String) : nodeAt (name :: rest) before = none := by
    cases before with
    | none => rfl
    | some old => exact nodeAt_cons_of_other (wasOther old rfl) name rest
  constructor
  · intro path surface _ unwritten
    cases path with
    | nil => exact absurd written unwritten
    | cons name rest =>
        rw [surfaceAt, surfaceAt, below]
        exact Iff.rfl
  · intro path referent link
    cases path with
    | nil => cases link
    | cons name rest => cases link
  · intro path reaches
    rw [unreached] at reaches
    cases reaches
  · intro path reaches
    rw [reachesDirectory_of_other (by simp [Node.surface])] at reaches
    cases reaches
  · intro path absent
    cases path with
    | nil => cases absent
    | cons name rest => exact .inl (below name rest)

/-- What is not a directory may be taken away where it may be removed. -/
theorem Keeps.taken
    (written : permission.written [])
    (removed : permission.removed [])
    (isOther : node.surface ≠ .directory) :
    Keeps permission (some node) none := by
  constructor
  · intro path surface _ unwritten
    cases path with
    | nil => exact absurd written unwritten
    | cons name rest => rw [surfaceAt, surfaceAt, nodeAt_cons_of_other isOther, nodeAt_none]
  · intro path referent link
    rw [nodeAt_none] at link
    cases link
  · intro path reaches
    rw [reachesDirectory_of_other isOther] at reaches
    cases reaches
  · intro path reaches
    rw [reachesDirectory_none] at reaches
    cases reaches
  · intro path _
    cases path with
    | nil => exact .inr removed
    | cons name rest => exact .inl (nodeAt_cons_of_other isOther name rest)

/-- An empty directory may be made where there was nothing. -/
theorem Keeps.mkdir (made : permission.made []) :
    Keeps permission none (some (.directory [])) := by
  have below (name : String) (rest : List String) :
      nodeAt (name :: rest) (some (.directory [])) = none := by
    rw [nodeAt, List.dlookup_nil, nodeAt_none]
  constructor
  · intro path surface isOther _
    cases path with
    | nil =>
        refine iff_of_false (fun same => isOther ?_) nofun
        exact (Option.some.inj same).symm
    | cons name rest => rw [surfaceAt, surfaceAt, below, nodeAt_none]
  · intro path referent link
    cases path with
    | nil => cases link
    | cons name rest =>
        rw [below] at link
        cases link
  · intro path reaches
    rw [reachesDirectory_none] at reaches
    cases reaches
  · intro path reaches
    cases path with
    | nil => exact .inr made
    | cons name rest =>
        rw [reachesDirectory, List.dlookup_nil, reachesDirectory_none] at reaches
        cases reaches
  · intro path _
    exact .inl (nodeAt_none path)

end Keeps

/-! ## The steps of a collection -/

section Steps

variable {permission : Permission} {host : Host} {request : Request}

/-- Making directories keeps everything. -/
theorem keeps_of_makes
    {path : List String}
    {before : Option Node}
    {after : Node}
    (makes : makeDirectories path before = .ok after)
    (made : ∀ front, front <+: path -> permission.made front) :
    Keeps permission before (some after) := by
  induction path generalizing permission before after with
  | nil =>
      rcases before with _ | (_ | _ | entries | _)
      · exact Except.ok.inj makes ▸ Keeps.mkdir (made [] List.nil_prefix)
      · cases makes
      · cases makes
      · exact Except.ok.inj makes ▸ Keeps.refl permission _
      · cases makes
  | cons name rest inductionHypothesis =>
      have madeBelow : ∀ front, front <+: rest -> (permission.below name).made front :=
        fun front isPrefix => made (name :: front) ((List.prefix_cons_inj name).mpr isPrefix)
      rcases before with _ | (_ | _ | entries | _)
      · simp only [makeDirectories, bind_eq_ok, Except.ok.injEq] at makes
        obtain ⟨node, inner, rfl⟩ := makes
        refine (Keeps.mkdir (made [] List.nil_prefix)).trans (Keeps.directory fun other => ?_)
        rw [List.dlookup_nil]
        by_cases same : other = name
        · subst same
          rw [List.dlookup_cons_eq]
          exact inductionHypothesis inner madeBelow
        · rw [List.dlookup_cons_ne _ _ same, List.dlookup_nil]
          exact Keeps.refl _ none
      · cases makes
      · cases makes
      · simp only [makeDirectories, bind_eq_ok, Except.ok.injEq] at makes
        obtain ⟨node, inner, rfl⟩ := makes
        refine Keeps.directory fun other => ?_
        rw [dlookup_assign]
        by_cases same : other = name
        · subst same
          rw [if_pos rfl]
          exact inductionHypothesis inner madeBelow
        · rw [if_neg same]
          exact Keeps.refl _ _
      · cases makes

/-- Writing into a directory keeps everything but the file that is written, if that is not a
link. -/
theorem keeps_of_writeInside
    {entries written : List (Σ _ : String, Node)}
    {name : String}
    {content : Bytes}
    (writes : writeInside entries name content = .ok written)
    (noLink : ∀ referent, entries.dlookup name ≠ some (.symlink referent))
    (allowed : permission.written [name]) :
    Keeps permission (some (.directory entries)) (some (.directory written)) := by
  have assigned
      (wasOther : ∀ old, entries.dlookup name = some old -> old.surface ≠ .directory) :
      Keeps permission (some (.directory entries))
        (some (.directory (assign entries name (.file content)))) := by
    refine Keeps.directory fun other => ?_
    rw [dlookup_assign]
    by_cases same : other = name
    · subst same
      rw [if_pos rfl]
      exact Keeps.replaced allowed wasOther
    · rw [if_neg same]
      exact Keeps.refl _ _
  unfold writeInside at writes
  split at writes
  · rename_i there
    exact Except.ok.inj writes ▸ assigned (by simp [there])
  · rename_i old there
    exact Except.ok.inj writes ▸ assigned (by simp [there, Node.surface])
  · cases writes
  · cases writes
  · rename_i referent _ there
    exact absurd there (noLink referent)
  · split at writes
    · exact Except.ok.inj writes ▸ Keeps.refl _ _
    · cases writes

/-- Copying to a name keeps everything but the copy. -/
theorem keeps_of_copyTo
    {name : String}
    {content : Bytes}
    {before : Option Node}
    {after : Node}
    (copies : copyTo host request name content before = .ok after)
    (noLink : ∀ referent, nodeAt [name] before ≠ some (.symlink referent))
    (here : permission.written [])
    (inside : permission.written [name]) :
    Keeps permission before (some after) := by
  rcases before with _ | (_ | _ | entries | writable)
  · exact Except.ok.inj copies ▸ Keeps.replaced here (by simp)
  · exact Except.ok.inj copies ▸ Keeps.replaced here (by simp [Node.surface])
  · cases copies
  · simp only [copyTo, bind_eq_ok, Except.ok.injEq] at copies
    obtain ⟨written, writes, rfl⟩ := copies
    exact keeps_of_writeInside writes noLink inside
  · rw [copyTo] at copies
    split at copies
    · rename_i isWritable
      rw [← Except.ok.inj copies, isWritable]
      exact Keeps.refl _ _
    · cases copies

/-- A directory is kept where each of its names is. -/
theorem keeps_of_lookup
    {before after : Directory}
    (each : ∀ name, Keeps (permission.below name) (before.lookup name) (after.lookup name)) :
    Keeps permission (treeOf (some before)) (treeOf (some after)) :=
  Keeps.directory each

/-- Inserting a name keeps the other ones. -/
theorem keeps_of_insert
    {directory : Directory}
    {name : String}
    {node : Node}
    (keeps : Keeps (permission.below name) (directory.lookup name) (some node)) :
    Keeps permission (treeOf (some directory)) (treeOf (some (directory.insert name node))) := by
  refine keeps_of_lookup fun other => ?_
  by_cases same : other = name
  · subst same
    rw [AList.lookup_insert]
    exact keeps
  · rw [AList.lookup_insert_ne same]
    exact Keeps.refl _ _

end Steps

/-! ## The whole collection -/

/-- The path to the work area, as far as it is below the output directory. -/
def WorkArea.fullPath (area : WorkArea) : List String :=
  (area.path.map fun parts => parts.1 ++ parts.2).getD []

/-- No directory of a release name holds a link of this name, which a copy would be written
through. -/
def NoLinkInside (out : Option Directory) : Prop :=
  ∀ name, isCleaned name = true -> ∀ referent,
    nodeAt [name, name] (treeOf out) ≠ some (.symlink referent)

/-- What a collection may do in the output directory. -/
def permission (host : Host) (request : Request) : Permission where
  written path := ∃ name, isCleaned name = true ∧ (path = [name] ∨ path = [name, name])
  made path := path <+: host.workArea.fullPath
  removed path := request.clean = true ∧ ∃ name, isCleaned name = true ∧ path = [name]

section Collection

variable {python : Python} {host : Host} {request : Request} {out staged : Option Directory}

theorem NoLinkInside.of_keeps
    {before after : Option Directory}
    {permission : Permission}
    (noLink : NoLinkInside before)
    (keeps : Keeps permission (treeOf before) (treeOf after)) :
    NoLinkInside after :=
  fun name cleaned referent link => noLink name cleaned referent (keeps.links _ referent link)

theorem keeps_made : Keeps (permission host request) (treeOf out) (treeOf (some (out.getD ∅))) := by
  cases out with
  | none => exact Keeps.mkdir (List.nil_prefix : [] <+: _)
  | some directory => exact Keeps.refl _ _

theorem keeps_of_stage (stages : stage host out = .ok staged) :
    Keeps (permission host request) (treeOf out) (treeOf staged) := by
  have fullPath : host.workArea.fullPath =
      (host.workArea.path.map fun parts => parts.1 ++ parts.2).getD [] := rfl
  unfold stage at stages
  cases area : host.workArea.path with
  | none =>
      simp only [area, Except.ok.injEq] at stages
      exact stages ▸ Keeps.refl _ _
  | some paths =>
      obtain ⟨above, made⟩ := paths
      simp only [area, Option.map_some, Option.getD_some] at stages fullPath
      cases path : above ++ made with
      | nil =>
          simp only [path, Except.ok.injEq] at stages
          exact stages ▸ keeps_made
      | cons name rest =>
          simp only [path, bind_eq_ok, Except.ok.injEq] at stages
          obtain ⟨_, _, node, makes, rfl⟩ := stages
          refine keeps_made.trans (keeps_of_insert (keeps_of_makes makes ?_))
          intro front isPrefix
          change name :: front <+: host.workArea.fullPath
          rw [fullPath, path]
          exact (List.prefix_cons_inj name).mpr isPrefix

theorem keeps_of_cleanUp
    (clean : request.clean = true)
    (directory : Directory) :
    Keeps (permission host request) (treeOf (some directory))
      (treeOf (some (cleanUp directory))) := by
  refine keeps_of_lookup fun name => ?_
  rw [lookup_cleanUp]
  cases found : directory.lookup name with
  | none => exact Keeps.refl _ none
  | some node =>
      by_cases kept : keptBy name node = true
      · rw [Option.filter_some, if_pos kept]
        exact Keeps.refl _ _
      · rw [Option.filter_some, if_neg kept]
        have removed : isCleaned name = true ∧ node.isUnlinked = true := by
          simpa [keptBy] using kept
        refine Keeps.taken ⟨name, removed.1, .inl rfl⟩ ⟨clean, name, removed.1, rfl⟩ ?_
        cases node with
        | directory entries => cases removed.2
        | file content => simp [Node.surface]
        | symlink referent => simp [Node.surface]
        | special writable => simp [Node.surface]

theorem keeps_of_copyOut
    {release directory after : Directory}
    {names : List String}
    {result : Except Exception Unit}
    (copied : copyOut host request release names directory = (result, after))
    (noLink : NoLinkInside (some directory))
    (cleaned : ∀ name ∈ names, isCleaned name = true) :
    Keeps (permission host request) (treeOf (some directory)) (treeOf (some after)) := by
  induction names generalizing directory with
  | nil =>
      rw [copyOut, Prod.mk.injEq] at copied
      exact copied.2 ▸ Keeps.refl _ _
  | cons name names inductionHypothesis =>
      rw [copyOut] at copied
      cases copies : copyAssembled host request release name (directory.lookup name) with
      | error error =>
          simp only [copies, Prod.mk.injEq] at copied
          exact copied.2 ▸ Keeps.refl _ _
      | ok node =>
          simp only [copies] at copied
          have isCleaned := cleaned name List.mem_cons_self
          obtain ⟨content, _, copies⟩ := copyAssembled_eq_ok.mp copies
          have step : Keeps (permission host request) (treeOf (some directory))
              (treeOf (some (directory.insert name node))) :=
            keeps_of_insert (keeps_of_copyTo copies (noLink name isCleaned)
              ⟨name, isCleaned, .inl rfl⟩ ⟨name, isCleaned, .inr rfl⟩)
          exact step.trans (inductionHypothesis copied (noLink.of_keeps step) fun other later =>
            cleaned other (List.mem_cons_of_mem name later))

/-- However a collection ends, it has written and removed only names of a release in the output
directory, has written nothing through a link, and has made only the directories of the work
area. All other files, links and special files are at their paths as before, no directory is
gone, and without a clean-up nothing is gone. -/
theorem collection_leaves_rest (noLink : NoLinkInside out) :
    Keeps (permission host request) (treeOf out)
      (treeOf (collect python host request out).2) := by
  unfold collect
  cases source : expectedSource python host request.version request.revision with
  | error error => exact Keeps.refl _ _
  | ok expected =>
      cases stages : stage host out with
      | error error => exact Keeps.refl _ _
      | ok staged =>
          cases prepares : prepareRelease python host request expected staged with
          | error error =>
              simp only [prepares]
              exact keeps_of_stage stages
          | ok release =>
              simp only [prepares]
              have cleaned : ∀ name ∈ host.listing release.keys, isCleaned name = true := by
                intro name listed
                have member : name ∈ release :=
                  AList.mem_keys.mp ((host.listing_perm _).mem_iff.mp listed)
                exact isCleaned_of_released ((released_of_prepareRelease prepares).2 name member)
              have keepsPrepared : Keeps (permission host request)
                  (treeOf (some (staged.getD ∅))) (treeOf (some (prepared request staged))) := by
                unfold prepared
                split
                · exact keeps_of_cleanUp ‹_› _
                · exact Keeps.refl _ _
              have keepsStaged := (keeps_of_stage stages).trans (keeps_made.trans keepsPrepared)
              exact keepsStaged.trans
                (keeps_of_copyOut rfl (noLink.of_keeps keepsStaged) cleaned)

end Collection

/-- An output directory with a link of another name, and a directory at the name of a checksum
list that holds a file of this name. -/
def SampleRelease.occupied : Directory :=
  AList.insert "SHA256SUMS-darwin-arm64" (.directory [⟨"SHA256SUMS-darwin-arm64", .file []⟩])
    (AList.insert "latest" (.symlink (.file (utf8 "read me"))) ∅)

theorem SampleRelease.noLinkInside_occupied : NoLinkInside (some occupied) := by
  intro name _ referent link
  change nodeAt [name] (occupied.lookup name) = _ at link
  by_cases isList : name = "SHA256SUMS-darwin-arm64"
  · subst isList
    cases link
  · rw [occupied, AList.lookup_insert_ne isList] at link
    by_cases isLatest : name = "latest"
    · subst isLatest
      cases link
    · rw [AList.lookup_insert_ne isLatest, AList.lookup_empty] at link
      cases link

open SampleRelease in
/-- The list is put into the directory of its name. -/
theorem collection_leaves_rest_sample :
    Keeps (permission host (request ["/builder"])) (treeOf (some occupied))
        (treeOf (collect python host (request ["/builder"]) (some occupied)).2) ∧
      (collect python host (request ["/builder"]) (some occupied)).1 = .ok () ∧
      nodeAt ["SHA256SUMS-darwin-arm64", "SHA256SUMS-darwin-arm64"]
          (treeOf (collect python host (request ["/builder"]) (some occupied)).2) =
        some (.file listFiles.macos) := by
  have noPackages : ∀ directory, some occupied = some directory ->
      packageFiles directory = [] := by
    rintro directory ⟨⟩
    rfl
  refine ⟨collection_leaves_rest noLinkInside_occupied, ?_⟩
  rw [(collects noPackages).collect_eq_copyOut]
  exact ⟨rfl, rfl⟩

/-- An output directory with a directory at the name of a checksum list, which holds a link of
this name that leads nowhere. -/
def SampleRelease.baited : Directory :=
  AList.singleton "SHA256SUMS-darwin-arm64"
    (.directory [⟨"SHA256SUMS-darwin-arm64", .symlink .missing⟩])

open SampleRelease in
/-- The list is written where the link leads. -/
theorem collection_writes_through_link :
    ¬Keeps (permission host (request ["/builder"])) (treeOf (some baited))
      (treeOf (collect python host (request ["/builder"]) (some baited)).2) := by
  intro keeps
  have noPackages : ∀ directory, some baited = some directory -> packageFiles directory = [] := by
    rintro directory ⟨⟩
    rfl
  rw [(collects noPackages).collect_eq_copyOut] at keeps
  have same := keeps.links ["SHA256SUMS-darwin-arm64", "SHA256SUMS-darwin-arm64"]
    (.file listFiles.macos) rfl
  cases same

end Release
end MacosAuth
