import MacosAuth.Release.Collection

/-!
# Refused collections

A collection that raises a `ValueError` should leave the output directory as it was. The
sources are refused before anything is written, unless the work area is below the output
directory and is made there. What is refused late is a symbolic link at a name of the release:
the files that were listed before it have been copied by then. After a clean-up there is no
such link, since it takes away the links at all names of a release.

Left out are the exceptions of the two calls that follow the copies. `print` may raise a
`UnicodeEncodeError`, which is a `ValueError`, for a path that the output cannot encode, and
`rmtree` an `OSError`; by then the release has been written.
-/

namespace MacosAuth
namespace Release

open Codec (Bytes)
open Collections
open Protocol (bind_eq_ok)

section Refusal

variable {python : Python} {host : Host} {request : Request} {expected : Description}
  {out staged : Option Directory}

/-- What there is at the names of the output directory, if it exists. -/
def entriesOf (out : Option Directory) : Option (String -> Option Node) :=
  out.map fun directory name => directory.lookup name

theorem entriesOf_some {directory other : Directory} :
    entriesOf (some directory) = entriesOf (some other) ↔
      ∀ name, directory.lookup name = other.lookup name := by
  rw [entriesOf, entriesOf, Option.map_some, Option.map_some, Option.some.injEq, funext_iff]

/-! ## The work area -/

theorem dlookup_assign
    (entries : List (Σ _ : String, Node))
    (name other : String)
    (node : Node) :
    (assign entries name node).dlookup other =
      if other = name then some node else entries.dlookup other := by
  induction entries with
  | nil =>
      by_cases same : other = name
      · subst same
        simp [assign]
      · simp [assign, same, List.dlookup_cons_ne]
  | cons entry rest inductionHypothesis =>
      obtain ⟨key, old⟩ := entry
      rw [assign]
      by_cases isKey : key = name
      · subst isKey
        rw [if_pos rfl]
        by_cases same : other = key
        · subst same
          simp
        · rw [if_neg same, List.dlookup_cons_ne _ _ same, List.dlookup_cons_ne _ _ same]
      · rw [if_neg isKey]
        by_cases same : other = key
        · subst same
          rw [List.dlookup_cons_eq, List.dlookup_cons_eq, if_neg isKey]
        · rw [List.dlookup_cons_ne _ _ same, inductionHypothesis, List.dlookup_cons_ne _ _ same]

theorem assign_self
    {entries : List (Σ _ : String, Node)}
    {name : String}
    {node : Node}
    (found : entries.dlookup name = some node) :
    assign entries name node = entries := by
  induction entries with
  | nil => simp at found
  | cons entry rest inductionHypothesis =>
      obtain ⟨key, old⟩ := entry
      rw [assign]
      by_cases isKey : key = name
      · subst isKey
        rw [List.dlookup_cons_eq, Option.some.injEq] at found
        rw [if_pos rfl, found]
      · rw [List.dlookup_cons_ne _ _ (Ne.symm isKey)] at found
        rw [if_neg isKey, inductionHypothesis found]

/-- Directories are made where the path does not lead to a directory. -/
theorem makeDirectories_unchanged_iff
    {path : List String}
    {before : Option Node}
    {after : Node}
    (makes : makeDirectories path before = .ok after) :
    before = some after ↔ reachesDirectory path before = true := by
  induction path generalizing before after with
  | nil =>
      rcases before with _ | (_ | _ | entries | _) <;>
        simp_all [makeDirectories, reachesDirectory]
  | cons name rest inductionHypothesis =>
      rcases before with _ | (_ | _ | entries | _)
      · simp [reachesDirectory]
      · simp [makeDirectories] at makes
      · simp [makeDirectories] at makes
      · simp only [makeDirectories, bind_eq_ok, Except.ok.injEq] at makes
        obtain ⟨node, inner, rfl⟩ := makes
        rw [reachesDirectory, ← inductionHypothesis inner, Option.some.injEq, Node.directory.injEq]
        constructor
        · intro same
          rw [same, dlookup_assign, if_pos rfl]
        · intro found
          rw [assign_self found]
      · simp [makeDirectories] at makes

/-- Directories that have been made are there. -/
theorem reachesDirectory_of_makes
    {path : List String}
    {before : Option Node}
    {after : Node}
    (makes : makeDirectories path before = .ok after) :
    reachesDirectory path (some after) = true := by
  induction path generalizing before after with
  | nil =>
      rcases before with _ | (_ | _ | entries | _) <;>
        simp_all [makeDirectories]
      all_goals rw [← makes]; rfl
  | cons name rest inductionHypothesis =>
      rcases before with _ | (_ | _ | entries | _)
      · simp only [makeDirectories, bind_eq_ok, Except.ok.injEq] at makes
        obtain ⟨node, inner, rfl⟩ := makes
        rw [reachesDirectory, List.dlookup_cons_eq]
        exact inductionHypothesis inner
      · simp [makeDirectories] at makes
      · simp [makeDirectories] at makes
      · simp only [makeDirectories, bind_eq_ok, Except.ok.injEq] at makes
        obtain ⟨node, inner, rfl⟩ := makes
        rw [reachesDirectory, dlookup_assign, if_pos rfl]
        exact inductionHypothesis inner
      · simp [makeDirectories] at makes

/-- The work area is not below the output directory, or it is already there. -/
def WorkArea.isReady (area : WorkArea) (out : Option Directory) : Bool :=
  match area.path with
  | none => true
  | some (above, made) =>
      match out, above ++ made with
      | none, _ => false
      | some _, [] => true
      | some directory, name :: rest => reachesDirectory rest (directory.lookup name)

theorem WorkArea.isReady_some {area : WorkArea} {directory : Directory} :
    area.isReady (some directory) = true ↔
      ∀ above made name rest, area.path = some (above, made) -> above ++ made = name :: rest ->
        reachesDirectory rest (directory.lookup name) = true := by
  unfold WorkArea.isReady
  rcases area.path with _ | ⟨above, made⟩
  · simp
  · constructor
    · rintro ready _ _ name rest ⟨⟩ path
      simpa only [path] using ready
    · intro reaches
      cases path : above ++ made with
      | nil => simp only [path]
      | cons name rest => simpa only [path] using reaches above made name rest rfl path

theorem WorkArea.isReady_congr
    {area : WorkArea}
    {other : Option Directory}
    (same : entriesOf out = entriesOf other) :
    area.isReady out = area.isReady other := by
  cases out with
  | none =>
      cases other with
      | none => rfl
      | some directory => cases same
  | some directory =>
      cases other with
      | none => cases same
      | some otherDirectory =>
          have sameNames := entriesOf_some.mp same
          rw [Bool.eq_iff_iff]
          simp only [WorkArea.isReady_some, sameNames]

/-- After `stage` the work area is there. -/
theorem isReady_of_stage (stages : stage host out = .ok staged) :
    host.workArea.isReady staged = true := by
  unfold stage at stages
  unfold WorkArea.isReady
  cases area : host.workArea.path with
  | none => rfl
  | some paths =>
      obtain ⟨above, made⟩ := paths
      simp only [area] at stages ⊢
      cases path : above ++ made with
      | nil =>
          simp only [path, Except.ok.injEq] at stages
          simp [← stages]
      | cons name rest =>
          simp only [path, bind_eq_ok, Except.ok.injEq] at stages
          obtain ⟨_, _, node, makes, rfl⟩ := stages
          simp only [AList.lookup_insert]
          exact reachesDirectory_of_makes makes

/-- Where the work area is there already, `stage` changes nothing. -/
theorem entriesOf_staged
    (stages : stage host out = .ok staged)
    (ready : host.workArea.isReady out = true) :
    entriesOf staged = entriesOf out := by
  unfold stage at stages
  unfold WorkArea.isReady at ready
  cases area : host.workArea.path with
  | none =>
      simp only [area, Except.ok.injEq] at stages
      rw [stages]
  | some paths =>
      obtain ⟨above, made⟩ := paths
      simp only [area] at stages ready
      cases out with
      | none => simp at ready
      | some directory =>
          cases path : above ++ made with
          | nil =>
              simp only [path, Except.ok.injEq] at stages
              rw [← stages, Option.getD_some]
          | cons name rest =>
              simp only [path, bind_eq_ok, Except.ok.injEq, Option.getD_some] at stages
              simp only [path] at ready
              obtain ⟨_, _, node, makes, rfl⟩ := stages
              have found := (makeDirectories_unchanged_iff makes).mpr ready
              refine entriesOf_some.mpr fun other => ?_
              by_cases same : other = name
              · rw [same, AList.lookup_insert, found]
              · exact AList.lookup_insert_ne same

theorem entriesOf_staged_iff (stages : stage host out = .ok staged) :
    entriesOf staged = entriesOf out ↔ host.workArea.isReady out = true :=
  ⟨fun same => WorkArea.isReady_congr same ▸ isReady_of_stage stages, entriesOf_staged stages⟩

theorem makeDirectories_eq_error
    {path : List String}
    {before : Option Node}
    {error : Exception}
    (fails : makeDirectories path before = .error error) :
    error = .osError := by
  have ofBind {inner : Except Exception Node} {onOk : Node -> Node} {error : Exception}
      (isOsError : ∀ other, inner = .error other -> other = .osError)
      (fails : (do let node ← inner; Except.ok (onOk node)) = .error error) :
      error = .osError := by
    cases inner with
    | ok node => cases fails
    | error other => exact Except.error.inj fails ▸ isOsError other rfl
  induction path generalizing before error with
  | nil => rcases before with _ | (_ | _ | _ | _) <;> simp_all [makeDirectories]
  | cons name rest inductionHypothesis =>
      rcases before with _ | (_ | _ | entries | _)
      · exact ofBind (fun _ inner => inductionHypothesis inner) fails
      · exact (Except.error.inj fails).symm
      · exact (Except.error.inj fails).symm
      · exact ofBind (fun _ inner => inductionHypothesis inner) fails
      · exact (Except.error.inj fails).symm

/-- `stage` raises no `ValueError`. -/
theorem not_isValueError_of_stage
    {error : Exception}
    (fails : stage host out = .error error) :
    error.isValueError = false := by
  unfold stage at fails
  cases area : host.workArea.path with
  | none => simp [area] at fails
  | some paths =>
      obtain ⟨above, made⟩ := paths
      simp only [area] at fails
      cases path : above ++ made with
      | nil => simp [path] at fails
      | cons name rest =>
          simp only [path] at fails
          cases reached : refuse (!above.isEmpty &&
              !reachesDirectory above.tail ((out.getD ∅).lookup name)) .osError with
          | error other =>
              rw [reached] at fails
              have same : other = error := Except.error.inj fails
              unfold refuse at reached
              split at reached
              · rw [← same, ← Except.error.inj reached]
                rfl
              · cases reached
          | ok value =>
              rw [reached] at fails
              cases makes : makeDirectories rest ((out.getD ∅).lookup name) with
              | ok node => simp [makes, bind, Except.bind] at fails
              | error other =>
                  have same : other = error := by
                    simpa [makes, bind, Except.bind] using fails
                  rw [← same, makeDirectories_eq_error makes]
                  rfl

/-! ## Copying to the output directory -/

variable {release directory after : Directory} {names : List String}

/-- What is written into a directory stays away from its directories. -/
theorem dlookup_of_writeInside
    {entries written : List (Σ _ : String, Node)}
    {name other : String}
    {content : Bytes}
    {inner : List (Σ _ : String, Node)}
    (writes : writeInside entries name content = .ok written)
    (found : entries.dlookup other = some (.directory inner)) :
    written.dlookup other = some (.directory inner) := by
  have kept {node : Node} (apart : other ≠ name) :
      (assign entries name node).dlookup other = some (.directory inner) := by
    rw [dlookup_assign, if_neg apart, found]
  have apart {node : Option Node} (there : entries.dlookup name = node)
      (noDirectory : node ≠ some (.directory inner)) : other ≠ name := by
    rintro rfl
    exact noDirectory (there ▸ found)
  unfold writeInside at writes
  split at writes
  · rename_i there
    exact Except.ok.inj writes ▸ kept (apart there (by simp))
  · rename_i old there
    exact Except.ok.inj writes ▸ kept (apart there (by simp))
  · cases writes
  · cases writes
  · exact Except.ok.inj writes ▸ kept (apart ‹_› (by simp))
  · split at writes
    · exact Except.ok.inj writes ▸ found
    · cases writes

/-- Copying to a name does not take away directories. -/
theorem reachesDirectory_of_copyTo
    {name : String}
    {content : Bytes}
    {path : List String}
    {before : Option Node}
    {node : Node}
    (copies : copyTo host request name content before = .ok node)
    (reaches : reachesDirectory path before = true) :
    reachesDirectory path (some node) = true := by
  rcases before with _ | (_ | _ | entries | _)
  · cases path <;> cases reaches
  · cases path <;> cases reaches
  · cases path <;> cases reaches
  · simp only [copyTo, bind_eq_ok, Except.ok.injEq] at copies
    obtain ⟨written, writes, rfl⟩ := copies
    cases path with
    | nil => rfl
    | cons first rest =>
        rw [reachesDirectory] at reaches ⊢
        cases found : entries.dlookup first with
        | none => cases rest <;> simp [found, reachesDirectory] at reaches
        | some inner =>
            cases inner with
            | directory below => rw [dlookup_of_writeInside writes found, ← found, reaches]
            | file content => cases rest <;> simp [found, reachesDirectory] at reaches
            | symlink referent => cases rest <;> simp [found, reachesDirectory] at reaches
            | special writable => cases rest <;> simp [found, reachesDirectory] at reaches
  · cases path <;> cases reaches

theorem copyAssembled_eq_ok
    {name : String}
    {before : Option Node}
    {node : Node} :
    copyAssembled host request release name before = .ok node ↔
      ∃ content, ArtifactPath.readBytes { directory := release, location := "", name } =
          .ok content ∧
        copyTo host request name content before = .ok node := by
  rw [copyAssembled, bind_eq_ok]

/-- What is below the output directory stays there while files are copied to it. -/
theorem isReady_of_copyOut
    {area : WorkArea}
    {result : Except Exception Unit}
    (copied : copyOut host request release names directory = (result, after))
    (ready : area.isReady (some directory) = true) :
    area.isReady (some after) = true := by
  induction names generalizing directory with
  | nil =>
      rw [copyOut, Prod.mk.injEq] at copied
      rw [← copied.2, ready]
  | cons name names inductionHypothesis =>
      rw [copyOut] at copied
      cases copies : copyAssembled host request release name (directory.lookup name) with
      | error error =>
          simp only [copies, Prod.mk.injEq] at copied
          rw [← copied.2, ready]
      | ok node =>
          simp only [copies] at copied
          refine inductionHypothesis copied ?_
          obtain ⟨content, _, copies⟩ := copyAssembled_eq_ok.mp copies
          rw [WorkArea.isReady_some] at ready ⊢
          intro above made first rest below path
          have reaches := ready above made first rest below path
          by_cases same : first = name
          · subst same
            rw [AList.lookup_insert]
            exact reachesDirectory_of_copyTo copies reaches
          · rw [AList.lookup_insert_ne same, reaches]

/-- Copying that succeeds has copied each of the names. -/
theorem copyOut_eq_ok
    (nodup : names.Nodup)
    (copied : copyOut host request release names directory = (.ok (), after)) :
    (∀ name ∈ names, ∃ node, after.lookup name = some node ∧
      copyAssembled host request release name (directory.lookup name) = .ok node) ∧
      ∀ name, name ∉ names -> after.lookup name = directory.lookup name := by
  induction names generalizing directory with
  | nil =>
      rw [copyOut, Prod.mk.injEq] at copied
      simp [copied.2]
  | cons name names inductionHypothesis =>
      obtain ⟨absent, nodup⟩ := List.nodup_cons.mp nodup
      rw [copyOut] at copied
      cases copies : copyAssembled host request release name (directory.lookup name) with
      | error error => simp [copies] at copied
      | ok node =>
          simp only [copies] at copied
          obtain ⟨each, others⟩ := inductionHypothesis nodup copied
          constructor
          · intro other member
            rcases List.mem_cons.mp member with rfl | later
            · exact ⟨node, by rw [others other absent, AList.lookup_insert], copies⟩
            · have apart : other ≠ name := fun same => absent (same ▸ later)
              obtain ⟨otherNode, looked, otherCopies⟩ := each other later
              exact ⟨otherNode, looked, by rwa [AList.lookup_insert_ne apart] at otherCopies⟩
          · intro other notMember
            rw [List.mem_cons, not_or] at notMember
            rw [others other notMember.2, AList.lookup_insert_ne notMember.1]

/-- Copying ends with an error at the first name that cannot be copied. -/
theorem copyOut_eq_error
    {error : Exception}
    (nodup : names.Nodup) :
    copyOut host request release names directory = (.error error, after) ↔
      ∃ before name rest, names = before ++ name :: rest ∧
        copyOut host request release before directory = (.ok (), after) ∧
        copyAssembled host request release name (directory.lookup name) = .error error := by
  induction names generalizing directory with
  | nil => simp [copyOut]
  | cons first names inductionHypothesis =>
      obtain ⟨absent, nodup⟩ := List.nodup_cons.mp nodup
      rw [copyOut]
      cases copies : copyAssembled host request release first (directory.lookup first) with
      | error other =>
          simp only [Prod.mk.injEq, Except.error.injEq]
          constructor
          · rintro ⟨rfl, rfl⟩
            exact ⟨[], first, names, rfl, rfl, copies⟩
          · rintro ⟨before, name, rest, same, copied, fails⟩
            cases before with
            | nil =>
                obtain ⟨rfl, rfl⟩ := List.cons.inj same
                rw [copyOut, Prod.mk.injEq] at copied
                rw [copies, Except.error.injEq] at fails
                exact ⟨fails, copied.2⟩
            | cons earlier before =>
                obtain ⟨rfl, rfl⟩ := List.cons.inj same
                simp [copyOut, copies] at copied
      | ok node =>
          rw [inductionHypothesis nodup]
          constructor
          · rintro ⟨before, name, rest, rfl, copied, fails⟩
            have apart : name ≠ first := by
              rintro rfl
              exact absent (by simp)
            rw [AList.lookup_insert_ne apart] at fails
            exact ⟨first :: before, name, rest, rfl, by rw [copyOut, copies]; exact copied, fails⟩
          · rintro ⟨before, name, rest, same, copied, fails⟩
            cases before with
            | nil =>
                obtain ⟨rfl, rfl⟩ := List.cons.inj same
                rw [copies] at fails
                cases fails
            | cons earlier before =>
                obtain ⟨rfl, rfl⟩ := List.cons.inj same
                have apart : name ≠ first := by
                  rintro rfl
                  exact absent (by simp)
                rw [copyOut, copies] at copied
                exact ⟨before, name, rest, rfl, copied,
                  by rwa [AList.lookup_insert_ne apart]⟩

/-- Copying succeeds where each of the names can be copied. -/
theorem exists_copyOut_eq_ok
    (nodup : names.Nodup)
    (each : ∀ name ∈ names, ∃ node,
      copyAssembled host request release name (directory.lookup name) = .ok node) :
    ∃ after, copyOut host request release names directory = (.ok (), after) := by
  induction names generalizing directory with
  | nil => exact ⟨directory, rfl⟩
  | cons name names inductionHypothesis =>
      obtain ⟨absent, nodup⟩ := List.nodup_cons.mp nodup
      obtain ⟨node, copies⟩ := each name List.mem_cons_self
      rw [copyOut, copies]
      refine inductionHypothesis nodup ?_
      intro other later
      have apart : other ≠ name := fun same => absent (same ▸ later)
      rw [AList.lookup_insert_ne apart]
      exact each other (List.mem_cons_of_mem name later)

/-! ## Links at names of the release -/

/-- There is a symbolic link at the name. -/
def IsLink (directory : Directory) (name : String) : Prop :=
  ∃ referent, directory.lookup name = some (.symlink referent)

/-- The release has files only, at names of a release. -/
theorem released_of_prepareRelease
    (prepares : prepareRelease python host request expected staged = .ok release) :
    Regular release ∧ ∀ name ∈ release, name ∈ knownNames ∨ ∃ package, ∃ role : Role,
      isFinalPackage package = true ∧ name = role.nameOf package := by
  rw [prepareRelease, bind_eq_ok] at prepares
  obtain ⟨chosen, gathered, assembles⟩ := prepares
  obtain ⟨items, stock⟩ := exists_stock gathered
  obtain ⟨_, _, _, _, files, _, _, rfl⟩ := (assemble_eq_ok stock).mp assembles
  exact ⟨assembled_regular stock, fun name => released_of_mem_assembled stock⟩

/-- A sidecar ends with the suffix of its package and its own ending. -/
theorem endsWith_append
    {name front back : String}
    (isSuffix : front.toList <:+ name.toList) :
    endsWith (name ++ back) (front ++ back) = true := by
  obtain ⟨start, split⟩ := isSuffix
  rw [endsWith, List.isSuffixOf_iff_suffix, String.toList_append, String.toList_append, ← split,
    List.append_assoc]
  exact List.suffix_append start _

/-- The clean-up takes away what has the name of a file of a release. -/
theorem isCleaned_of_released
    {name : String}
    (released : name ∈ knownNames ∨ ∃ package, ∃ role : Role,
      isFinalPackage package = true ∧ name = role.nameOf package) :
    isCleaned name = true := by
  rcases released with known | ⟨package, role, isFinal, rfl⟩
  · simp [isCleaned, known]
  · obtain ⟨ending, isEnding, isSuffix⟩ := exists_suffix_of_isFinalPackage isFinal
    cases role with
    | package =>
        have listed := (Bool.and_eq_true_iff.mp isFinal).1
        simp only [isCleaned, Role.nameOf, id_eq, listed, Bool.or_true, Bool.true_or]
    | metadata =>
        have ends : endsWith (metadataName package) (ending ++ ".metadata.json") = true :=
          endsWith_append isSuffix
        rw [isCleaned, Bool.or_eq_true, List.any_eq_true]
        refine .inr ⟨_, ?_, ends⟩
        simp only [packageSuffixes, List.mem_cons, List.not_mem_nil, or_false] at isEnding
        rcases isEnding with rfl | rfl | rfl <;> decide
    | checksum =>
        have ends : endsWith (checksumName package) (ending ++ ".sha256") = true :=
          endsWith_append isSuffix
        rw [isCleaned, Bool.or_eq_true, List.any_eq_true]
        refine .inr ⟨_, ?_, ends⟩
        simp only [packageSuffixes, List.mem_cons, List.not_mem_nil, or_false] at isEnding
        rcases isEnding with rfl | rfl | rfl <;> decide

theorem writeInside_eq_error
    {entries : List (Σ _ : String, Node)}
    {name : String}
    {content : Bytes}
    {error : Exception}
    (fails : writeInside entries name content = .error error) :
    error = .osError := by
  unfold writeInside at fails
  split at fails
  · cases fails
  · cases fails
  · exact (Except.error.inj fails).symm
  · exact (Except.error.inj fails).symm
  · cases fails
  · split at fails
    · cases fails
    · exact (Except.error.inj fails).symm

/-- What is refused while a file is copied is a link. -/
theorem isLink_of_copyAssembled
    {name : String}
    {error : Exception}
    (fails : copyAssembled host request release name (directory.lookup name) = .error error)
    (isValueError : error.isValueError = true) :
    IsLink directory name := by
  have noneElse : error ≠ .osError := by
    rintro rfl
    cases isValueError
  unfold copyAssembled at fails
  cases reads : ArtifactPath.readBytes { directory := release, location := "", name } with
  | error other =>
      rw [reads] at fails
      unfold ArtifactPath.readBytes at reads
      split at reads <;> cases reads
      exact absurd (Except.error.inj fails).symm noneElse
  | ok content =>
      rw [reads] at fails
      change copyTo host request name content (directory.lookup name) = .error error at fails
      unfold copyTo at fails
      split at fails
      · cases fails
      · cases fails
      · rename_i referent found
        exact ⟨referent, found⟩
      · rename_i entries found
        cases writes : writeInside entries name content with
        | ok written => simp [writes, bind, Except.bind] at fails
        | error other =>
            have same : other = error := by simpa [writes, bind, Except.bind] using fails
            exact absurd (same ▸ writeInside_eq_error writes) noneElse
      · split at fails
        · cases fails
        · exact absurd (Except.error.inj fails).symm noneElse

/-- A file of the release is not copied to a link. -/
theorem copyAssembled_of_isLink
    {name : String}
    (regular : Regular release)
    (member : name ∈ release)
    (link : IsLink directory name) :
    ∃ error, copyAssembled host request release name (directory.lookup name) = .error error ∧
      error.isValueError = true := by
  obtain ⟨referent, found⟩ := link
  obtain ⟨node, held⟩ := Option.isSome_iff_exists.mp (AList.lookup_isSome.mpr member)
  obtain ⟨content, rfl⟩ := regular name node held
  have reads : ArtifactPath.readBytes { directory := release, location := "", name } =
      .ok content := ArtifactPath.readBytes_of_file held
  refine ⟨.valueError s!"refusing symlink output: {host.resolve request.outDir}/{name}", ?_, rfl⟩
  rw [copyAssembled, reads, found]
  rfl

/-- Where files are copied to there are links only if there was no clean-up. -/
theorem isLink_of_prepared
    {name : String}
    (prepares : prepareRelease python host request expected staged = .ok release)
    (member : name ∈ release)
    (link : IsLink (prepared request staged) name) :
    request.clean = false ∧ IsLink (staged.getD ∅) name := by
  obtain ⟨referent, found⟩ := link
  refine ⟨?_, referent, lookup_prepared found⟩
  by_contra clean
  rw [Bool.not_eq_false] at clean
  have cleaned := isCleaned_of_released ((released_of_prepareRelease prepares).2 name member)
  rw [prepared, if_pos clean, lookup_cleanUp, Option.filter_eq_some_iff] at found
  simp [keptBy, cleaned, Node.isUnlinked] at found

/-! ## When a refused collection leaves the output directory -/

/-- The file of the release is already at its name. -/
def IsThere
    (host : Host)
    (request : Request)
    (release : Directory)
    (out : Option Directory)
    (name : String) :
    Prop :=
  ∃ node, (out.getD ∅).lookup name = some node ∧
    copyAssembled host request release name (some node) = .ok node

/-- The first file of the release that cannot be copied is for a name with a link, and these
are listed before it. -/
structure MeetsLink
    (host : Host)
    (request : Request)
    (release : Directory)
    (staged : Option Directory)
    (before : List String)
    (name : String) :
    Prop where
  noCleanUp : request.clean = false
  listed : before ++ [name] <+: host.listing release.keys
  link : IsLink (staged.getD ∅) name
  copied : ∀ earlier ∈ before, ∃ node,
    copyAssembled host request release earlier ((staged.getD ∅).lookup earlier) = .ok node

/-- What there has to be for a refused collection to leave the output directory as it was. If
the sources are refused, the work area is not made below the output directory. If a link is
met, neither is it, and the files listed before the link are already there. -/
structure LeavesOutput
    (python : Python)
    (host : Host)
    (request : Request)
    (out : Option Directory) :
    Prop where
  refused : ∀ expected staged error,
    expectedSource python host request.version request.revision = .ok expected ->
    stage host out = .ok staged ->
    prepareRelease python host request expected staged = .error error ->
    error.isValueError = true ->
      host.workArea.isReady out = true
  linked : ∀ expected staged release before name,
    expectedSource python host request.version request.revision = .ok expected ->
    stage host out = .ok staged ->
    prepareRelease python host request expected staged = .ok release ->
    MeetsLink host request release staged before name ->
      host.workArea.isReady out = true ∧ ∀ earlier ∈ before, IsThere host request release out earlier

/-- A refused collection ends before it copies, or at a link. -/
theorem collect_eq_valueError
    {error : Exception}
    {left : Option Directory}
    (isValueError : error.isValueError = true) :
    collect python host request out = (.error error, left) ↔
      (expectedSource python host request.version request.revision = .error error ∧ left = out) ∨
      ∃ expected staged,
        expectedSource python host request.version request.revision = .ok expected ∧
        stage host out = .ok staged ∧
        ((prepareRelease python host request expected staged = .error error ∧ left = staged) ∨
        ∃ release, prepareRelease python host request expected staged = .ok release ∧
          Prod.map id some (copyOut host request release (host.listing release.keys)
            (prepared request staged)) = (.error error, left)) := by
  unfold collect
  cases source : expectedSource python host request.version request.revision with
  | error other => simp [eq_comm]
  | ok expected =>
      cases stages : stage host out with
      | error other =>
          have noValueError := not_isValueError_of_stage stages
          have apart : other ≠ error := by
            rintro rfl
            simp [isValueError] at noValueError
          simp [apart]
      | ok staged =>
          cases prepares : prepareRelease python host request expected staged with
          | error other => simp [eq_comm, prepares]
          | ok release => simp [prepares, prepared, Prod.map]

theorem lookup_getD_of_entriesOf
    {other : Option Directory}
    (same : entriesOf out = entriesOf other)
    (name : String) :
    (out.getD ∅).lookup name = (other.getD ∅).lookup name := by
  cases out <;> cases other
  · rfl
  · cases same
  · cases same
  · exact entriesOf_some.mp same name

/-- A copy that was made and is refused at a link leaves the directory as it was only if the
files are already there. -/
theorem MeetsLink.entriesOf_iff
    {before : List String}
    {name : String}
    (meets : MeetsLink host request release staged before name)
    (stages : stage host out = .ok staged)
    (copied : copyOut host request release before (staged.getD ∅) = (.ok (), after)) :
    entriesOf (some after) = entriesOf out ↔
      host.workArea.isReady out = true ∧
        ∀ earlier ∈ before, IsThere host request release out earlier := by
  have nodup : before.Nodup := by
    refine ((host.listing_perm release.keys).nodup_iff.mpr (AList.keys_nodup release)).sublist ?_
    exact (List.sublist_append_left before [name]).trans meets.listed.sublist
  obtain ⟨directory, rfl⟩ : ∃ directory, staged = some directory := by
    obtain ⟨referent, found⟩ := meets.link
    cases staged with
    | none => simp at found
    | some directory => exact ⟨directory, rfl⟩
  rw [Option.getD_some] at copied
  obtain ⟨each, others⟩ := copyOut_eq_ok nodup copied
  constructor
  · intro same
    have ready : host.workArea.isReady out = true := by
      rw [← WorkArea.isReady_congr same]
      exact isReady_of_copyOut copied (isReady_of_stage stages)
    refine ⟨ready, ?_⟩
    intro earlier member
    obtain ⟨node, looked, copies⟩ := each earlier member
    have found : (out.getD ∅).lookup earlier = some node := by
      rw [← lookup_getD_of_entriesOf same, Option.getD_some, looked]
    have sameStaged := lookup_getD_of_entriesOf (entriesOf_staged stages ready) earlier
    rw [Option.getD_some, found] at sameStaged
    exact ⟨node, found, sameStaged ▸ copies⟩
  · rintro ⟨ready, there⟩
    have sameStaged := entriesOf_staged stages ready
    rw [← sameStaged]
    refine entriesOf_some.mpr fun other => ?_
    by_cases member : other ∈ before
    · obtain ⟨node, looked, copies⟩ := each other member
      obtain ⟨held, found, copiesHeld⟩ := there other member
      have foundStaged := lookup_getD_of_entriesOf sameStaged other
      rw [Option.getD_some, found] at foundStaged
      rw [foundStaged, copiesHeld, Except.ok.injEq] at copies
      rw [looked, foundStaged, copies]
    · exact others other member

/-- A refused collection leaves the output directory as it was if and only if nothing has been
made in it or copied to it before the refusal. -/
theorem refused_collection_leaves_output_iff
    (python : Python)
    (host : Host)
    (request : Request)
    (out : Option Directory) :
    (∀ error, (collect python host request out).1 = .error error ->
      error.isValueError = true ->
        entriesOf (collect python host request out).2 = entriesOf out) ↔
      LeavesOutput python host request out := by
  constructor
  · intro leaves
    have leaves {error : Exception} {left : Option Directory} (isValueError : error.isValueError = true)
        (collected : collect python host request out = (.error error, left)) :
        entriesOf left = entriesOf out := by
      have same := leaves error (by rw [collected]) isValueError
      rwa [collected] at same
    constructor
    · intro expected staged error source stages prepares isValueError
      refine (entriesOf_staged_iff stages).mp (leaves isValueError ?_)
      exact (collect_eq_valueError isValueError).mpr
        (.inr ⟨expected, staged, source, stages, .inl ⟨prepares, rfl⟩⟩)
    · intro expected staged release before name source stages prepares meets
      have notCleaned : prepared request staged = staged.getD ∅ := by
        rw [prepared, meets.noCleanUp, if_neg Bool.false_ne_true]
      have nodup := (host.listing_perm release.keys).nodup_iff.mpr (AList.keys_nodup release)
      obtain ⟨rest, listed⟩ := meets.listed
      rw [List.append_assoc, List.singleton_append] at listed
      have member : name ∈ release := by
        rw [AList.mem_keys, ← (host.listing_perm release.keys).mem_iff, ← listed]
        simp
      obtain ⟨after, copied⟩ := exists_copyOut_eq_ok (nodup.sublist
        (listed ▸ List.sublist_append_left before (name :: rest))) meets.copied
      obtain ⟨error, fails, isValueError⟩ : ∃ error,
          copyAssembled host request release name ((staged.getD ∅).lookup name) = .error error ∧
            error.isValueError = true :=
        copyAssembled_of_isLink (released_of_prepareRelease prepares).1 member meets.link
      refine (meets.entriesOf_iff stages copied).mp (leaves isValueError ?_)
      refine (collect_eq_valueError isValueError).mpr (.inr ⟨expected, staged, source, stages,
        .inr ⟨release, prepares, ?_⟩⟩)
      rw [notCleaned, (copyOut_eq_error nodup).mpr ⟨before, name, rest, listed.symm, copied, fails⟩]
      rfl
  · intro condition error ends isValueError
    have collected : collect python host request out =
        (.error error, (collect python host request out).2) := Prod.ext ends rfl
    rcases (collect_eq_valueError isValueError).mp collected with
      ⟨_, left⟩ | ⟨expected, staged, source, stages, ⟨prepares, left⟩ | ⟨release, prepares, copies⟩⟩
    · rw [left]
    · rw [left]
      exact entriesOf_staged stages
        (condition.refused expected staged error source stages prepares isValueError)
    · cases copied : copyOut host request release (host.listing release.keys)
          (prepared request staged) with
      | mk result after =>
          rw [copied, Prod.map_apply, id_eq, Prod.mk.injEq] at copies
          obtain ⟨rfl, left⟩ := copies
          have nodup := (host.listing_perm release.keys).nodup_iff.mpr (AList.keys_nodup release)
          obtain ⟨before, name, rest, listed, earlier, fails⟩ := (copyOut_eq_error nodup).mp copied
          have member : name ∈ release := by
            rw [AList.mem_keys, ← (host.listing_perm release.keys).mem_iff, listed]
            simp
          obtain ⟨noCleanUp, link⟩ := isLink_of_prepared prepares member
            (isLink_of_copyAssembled fails isValueError)
          have notCleaned : prepared request staged = staged.getD ∅ := by
            rw [prepared, noCleanUp, if_neg Bool.false_ne_true]
          rw [notCleaned] at earlier
          have each := (copyOut_eq_ok (nodup.sublist
            (listed ▸ List.sublist_append_left before (name :: rest))) earlier).1
          have meets : MeetsLink host request release staged before name :=
            { noCleanUp := noCleanUp
              listed := ⟨rest, by rw [listed, List.append_assoc, List.singleton_append]⟩
              link := link
              copied := fun other isEarlier =>
                (each other isEarlier).imp fun _ copy => copy.2 }
          rw [← left]
          exact (meets.entriesOf_iff stages earlier).mpr
            (condition.linked expected staged release before name source stages prepares meets)

end Refusal

/-- An output directory with a symbolic link at the name of a checksum list. -/
def SampleRelease.linked : Directory :=
  AList.singleton "SHA256SUMS-darwin-arm64" (.symlink .missing)

open SampleRelease in
/-- A link is refused after the file that is listed before it has been copied. -/
theorem refused_collection_changes_output :
    (collect python host (request ["/builder"]) (some linked)).1 =
        .error (.valueError "refusing symlink output: /out/SHA256SUMS-darwin-arm64") ∧
      entriesOf (collect python host (request ["/builder"]) (some linked)).2 ≠
        entriesOf (some linked) := by
  have noPackages : ∀ directory, some linked = some directory -> packageFiles directory = [] := by
    rintro directory ⟨⟩
    rfl
  rw [(collects noPackages).collect_eq_copyOut]
  constructor
  · rfl
  · intro same
    have added := congrFun (Option.some.inj same) "BUILD-METADATA-darwin-arm64.txt"
    cases added

end Release
end MacosAuth
