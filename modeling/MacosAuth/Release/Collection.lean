import MacosAuth.Release.Assembly
import MacosAuth.Release.Verification

/-!
# Collections into directories of regular files

Where the output directory has regular files only, a collection from sources on this machine
ends with a directory that has the assembled release, and beside it what was there under
other names. Two results follow: what was collected is verified, and the order and the number
of the sources do not matter.
-/

namespace MacosAuth
namespace Release

open Codec (Bytes)
open Collections
open Protocol (bind_eq_ok)

section Collection

variable {python : Python} {host : Host} {request : Request} {expected : Description}
  {out : Option Directory} {chosen : Chosen} {items : List Item}

/-! ## From the sources to the assembled release -/

/-- What is offered are packages by their names. -/
theorem isFinalPackage_of_offered
    {index : Nat}
    {sources : List String}
    {packages : List ArtifactPath}
    (offer : offered host request out index sources = .ok packages) :
    ∀ package ∈ packages, isFinalPackage package.name = true := by
  induction sources generalizing index packages with
  | nil =>
      rw [offered, Except.ok.injEq] at offer
      simp [← offer]
  | cons source rest inductionHypothesis =>
      simp only [offered, bind_eq_ok, Except.ok.injEq] at offer
      obtain ⟨own, opened, others, restOffer, rfl⟩ := offer
      intro package member
      rcases List.mem_append.mp member with isOwn | isOther
      · simp only [sourcePackages, bind_eq_ok, refuse_eq_ok, exists_const,
          Except.ok.injEq] at opened
        obtain ⟨⟨directory, location⟩, _, _, rfl⟩ := opened
        obtain ⟨name, listed, rfl⟩ := List.mem_map.mp isOwn
        exact (List.mem_filter.mp (mem_sorted.mp listed)).2
      · exact inductionHypothesis restOffer package isOther

/-- The packages that were gathered are items of a release. -/
theorem exists_stock
    {index : Nat}
    {sources : List String}
    (gathered : gather python host request expected out index sources ∅ = .ok chosen) :
    ∃ items, Stock python expected request.version chosen items := by
  obtain ⟨packages, offer, accepted, _, rfl⟩ := gather_empty_eq_ok.mp gathered
  have each : ∀ name ∈ sorted (insertAll (keyed ArtifactPath.name packages) ∅).keys,
      ∃ item : Item, item.name = name ∧ (∃ package,
        (insertAll (keyed ArtifactPath.name packages) ∅).lookup item.name = some package ∧
          package.Holds item.bundle) ∧ item.IsGenuine python expected request.version := by
    intro name isKey
    rw [mem_sorted, ← AList.mem_keys, ← AList.lookup_isSome, Option.isSome_iff_exists] at isKey
    obtain ⟨package, looked⟩ := isKey
    obtain ⟨member, rfl⟩ := mem_of_lookup_keyed looked
    obtain ⟨item, sameName, holds, genuine, _⟩ := accepted package member
    exact ⟨item, sameName, ⟨package, sameName ▸ looked, holds⟩, genuine⟩
  obtain ⟨items, names, rest⟩ := exists_items_of_forall each
  refine ⟨items, names, ?_, ?_, fun item member => (rest item member).1,
    fun item member => (rest item member).2⟩
  · intro name isKey
    obtain ⟨package, member, rfl⟩ := mem_insertAll_keyed.mp isKey
    exact isFinalPackage_of_offered offer package member
  · intro name package looked
    exact (mem_of_lookup_keyed looked).2

/-! ## The output directory -/

/-- There are regular files only. -/
def Regular (directory : Directory) : Prop :=
  ∀ name node, directory.lookup name = some node -> ∃ content, node = .file content

/-- The copy of a file over a name that is free or has a regular file. -/
theorem copyTo_of_regular
    {name : String}
    {content : Bytes}
    {node : Option Node}
    (regular : ∀ found, node = some found -> ∃ old, found = .file old) :
    copyTo host request name content node = .ok (.file content) := by
  cases node with
  | none => rfl
  | some found =>
      obtain ⟨old, rfl⟩ := regular found rfl
      rfl

/-- Copying over regular files replaces the names that are copied and leaves the others. -/
theorem copyOut_of_regular
    {release directory : Directory}
    {names : List String}
    (files : ∀ name ∈ names, ∃ content, release.lookup name = some (.file content))
    (regular : ∀ name ∈ names, ∀ node, directory.lookup name = some node ->
      ∃ content, node = .file content) :
    ∃ after, copyOut host request release names directory = (.ok (), after) ∧
      ∀ name, after.lookup name =
        if name ∈ names then release.lookup name else directory.lookup name := by
  induction names generalizing directory with
  | nil => exact ⟨directory, rfl, by simp⟩
  | cons name names inductionHypothesis =>
      rw [List.forall_mem_cons] at files regular
      obtain ⟨content, file⟩ := files.1
      have read : ArtifactPath.readBytes { directory := release, location := "", name } =
          .ok content := ArtifactPath.readBytes_of_file file
      have step : copyOut host request release (name :: names) directory =
          copyOut host request release names (directory.insert name (.file content)) := by
        simp [copyOut, copyAssembled, read, copyTo_of_regular regular.1, bind, Except.bind]
      have nextRegular : ∀ other ∈ names, ∀ node,
          (directory.insert name (.file content)).lookup other = some node ->
            ∃ content, node = .file content := by
        intro other member node found
        by_cases same : other = name
        · rw [same, AList.lookup_insert, Option.some.injEq] at found
          exact ⟨content, found.symm⟩
        · rw [AList.lookup_insert_ne same] at found
          exact regular.2 other member node found
      obtain ⟨after, copied, looked⟩ := inductionHypothesis files.2 nextRegular
      refine ⟨after, step.trans copied, ?_⟩
      intro other
      rw [looked]
      by_cases later : other ∈ names
      · rw [if_pos later, if_pos (List.mem_cons_of_mem _ later)]
      · rw [if_neg later]
        by_cases same : other = name
        · rw [same, AList.lookup_insert, if_pos List.mem_cons_self, file]
        · rw [AList.lookup_insert_ne same, if_neg (by simp [same, later])]

/-- What the clean-up leaves at a name. -/
def keptBy (name : String) (node : Node) : Bool :=
  !(isCleaned name && node.isUnlinked)

theorem lookup_unlinkCleaned (directory : Directory) (name other : String) :
    (unlinkCleaned directory other).lookup name =
      if name = other then (directory.lookup name).filter (keptBy name)
      else directory.lookup name := by
  unfold unlinkCleaned keptBy
  by_cases same : name = other
  · subst same
    rw [if_pos rfl]
    cases looked : directory.lookup name with
    | none => simpa using looked
    | some node =>
        cases removed : isCleaned name && node.isUnlinked <;> simp [removed, looked, Option.filter]
  · rw [if_neg same]
    split
    · split
      · exact AList.lookup_erase_ne same
      · rfl
    · rfl

/-- The clean-up takes away files and links by their names. -/
theorem lookup_cleanUp (directory : Directory) (name : String) :
    (cleanUp directory).lookup name = (directory.lookup name).filter (keptBy name) := by
  have each : ∀ (names : List String) (current : Directory),
      (names.foldl unlinkCleaned current).lookup name =
        if name ∈ names then (current.lookup name).filter (keptBy name)
        else current.lookup name := by
    intro names
    induction names with
    | nil => simp
    | cons other names inductionHypothesis =>
        intro current
        rw [List.foldl_cons, inductionHypothesis, lookup_unlinkCleaned]
        by_cases same : name = other <;> by_cases later : name ∈ names <;>
          simp [same, later, Option.filter_filter]
  rw [cleanUp, each]
  split
  · rfl
  · rename_i absent
    rw [← AList.mem_keys, ← AList.lookup_eq_none] at absent
    simp [absent]

/-- The names of the directories that `stage` makes. -/
def stageNames : List String := ["target", "package", "collection-work"]

/-- The names of a release are not those of the work area. -/
theorem notMem_stageNames
    {name : String}
    (released : name ∈ knownNames ∨ ∃ package, ∃ role : Role,
      isFinalPackage package = true ∧ name = role.nameOf package) :
    name ∉ stageNames := by
  intro staged
  simp only [stageNames, List.mem_cons, List.not_mem_nil, or_false] at staged
  rcases released with known | ⟨package, role, isFinal, same⟩
  · rcases staged with rfl | rfl | rfl <;> simp [knownNames] at known
  · have final := lastCharacter_of_isFinalPackage isFinal
    cases role with
    | package =>
        rw [Role.nameOf, id_eq] at same
        rw [← same] at final
        rcases staged with rfl | rfl | rfl <;> revert final <;> decide
    | metadata =>
        have last := congrArg lastCharacter same
        rw [Role.nameOf, lastCharacter_metadataName] at last
        rcases staged with rfl | rfl | rfl <;> revert last <;> decide
    | checksum =>
        have last := congrArg lastCharacter same
        rw [Role.nameOf, lastCharacter_checksumName] at last
        rcases staged with rfl | rfl | rfl <;> revert last <;> decide

/-- In a directory of regular files `stage` changes the names of the work area only. -/
theorem stage_of_regular
    {staged : Option Directory}
    (regular : ∀ directory, out = some directory -> Regular directory)
    (stages : stage host out = .ok staged)
    {name : String}
    (other : name ∉ stageNames) :
    (staged.getD ∅).lookup name = (out.getD ∅).lookup name := by
  have entriesRegular : Regular (out.getD ∅) := by
    cases out with
    | none =>
        intro name node found
        simp at found
    | some directory => exact regular directory rfl
  have making {first : String} {rest : List String} (isStageName : first ∈ stageNames)
      (makes : (do
        let node ← makeDirectories rest ((out.getD ∅).lookup first)
        Except.ok (some ((out.getD ∅).insert first node))) = .ok staged) :
      (staged.getD ∅).lookup name = (out.getD ∅).lookup name := by
    rw [bind_eq_ok] at makes
    obtain ⟨node, _, inserted⟩ := makes
    rw [← Except.ok.inj inserted, Option.getD_some, AList.lookup_insert_ne]
    rintro rfl
    exact other isStageName
  unfold stage at stages
  cases area : host.workArea with
  | apart =>
      simp only [area, WorkArea.path, Except.ok.injEq] at stages
      rw [stages]
  | itself =>
      simp only [area, WorkArea.path, List.append_nil, Except.ok.injEq] at stages
      rw [← stages, Option.getD_some]
  | package =>
      simp only [area, WorkArea.path, List.nil_append, List.isEmpty_nil] at stages
      exact making (by simp [stageNames]) stages
  | target =>
      simp only [area, WorkArea.path, List.nil_append, List.isEmpty_nil] at stages
      exact making (by simp [stageNames]) stages
  | repository path =>
      cases path with
      | nil =>
          simp only [area, WorkArea.path, List.nil_append, List.isEmpty_nil] at stages
          exact making (by simp [stageNames]) stages
      | cons first more =>
          -- The repository would be below a regular file.
          simp only [area, WorkArea.path, List.cons_append, bind_eq_ok, refuse_eq_ok] at stages
          obtain ⟨_, reaches, _⟩ := stages
          cases looked : (out.getD ∅).lookup first with
          | none => cases more <;> simp [looked, reachesDirectory] at reaches
          | some node =>
              obtain ⟨content, rfl⟩ := entriesRegular first node looked
              cases more <;> simp [looked, reachesDirectory] at reaches

/-! ## A whole collection -/

/-- What a collection has seen when it begins to write. -/
structure Collects
    (python : Python)
    (host : Host)
    (request : Request)
    (out : Option Directory)
    (expected : Description)
    (staged : Option Directory)
    (chosen : Chosen)
    (items : List Item)
    (index : Json)
    (files : ListFiles) :
    Prop where
  source : expectedSource python host request.version request.revision = .ok expected
  stages : stage host out = .ok staged
  gathered : gather python host request expected staged 0 (allSources host request staged) ∅ =
    .ok chosen
  stock : Stock python expected request.version chosen items
  nonempty : items ≠ []
  described : ∃ copied records,
    describe python host request expected chosen = .ok (copied, records, index)
  encode : files.Encode python items index

variable {staged : Option Directory} {index : Json} {files : ListFiles}

theorem Collects.assembles
    (collects : Collects python host request out expected staged chosen items index files) :
    assemble python host request expected chosen = .ok (assembled chosen items files) := by
  obtain ⟨copied, records, described⟩ := collects.described
  exact (assemble_eq_ok collects.stock).mpr ⟨collects.nonempty, copied, records, index, files,
    described, collects.encode, rfl⟩

/-- A collection that succeeds has seen all of this. -/
theorem exists_collects_of_ok
    {after : Option Directory}
    (collected : collect python host request out = (.ok (), after)) :
    ∃ expected staged chosen items index files,
      Collects python host request out expected staged chosen items index files := by
  unfold collect at collected
  split at collected
  · simp at collected
  · rename_i expected source
    split at collected
    · simp at collected
    · rename_i staged stages
      split at collected
      · simp at collected
      · rename_i release assembles
        rw [prepareRelease, bind_eq_ok] at assembles
        obtain ⟨chosen, gathered, assembles⟩ := assembles
        obtain ⟨items, stock⟩ := exists_stock gathered
        obtain ⟨nonempty, copied, records, index, files, described, encode, _⟩ :=
          (assemble_eq_ok stock).mp assembles
        exact ⟨expected, staged, chosen, items, index, files, source, stages, gathered, stock,
          nonempty, ⟨copied, records, described⟩, encode⟩

/-- The output directory before the release is copied to it. -/
def prepared (request : Request) (staged : Option Directory) : Directory :=
  if request.clean then cleanUp (staged.getD ∅) else staged.getD ∅

/-- How a collection ends that has seen all of this. -/
theorem Collects.collect_eq_copyOut
    (collects : Collects python host request out expected staged chosen items index files) :
    collect python host request out =
      Prod.map id some (copyOut host request (assembled chosen items files)
        (host.listing (assembled chosen items files).keys) (prepared request staged)) := by
  have release : prepareRelease python host request expected staged =
      .ok (assembled chosen items files) := by
    rw [prepareRelease, collects.gathered]
    exact collects.assembles
  simp only [collect, collects.source, collects.stages, release]
  rfl

/-- What is left of a name before the release is copied was there before. -/
theorem lookup_prepared
    {name : String}
    {node : Node}
    (found : (prepared request staged).lookup name = some node) :
    (staged.getD ∅).lookup name = some node := by
  unfold prepared at found
  split at found
  · rw [lookup_cleanUp, Option.filter_eq_some_iff] at found
    exact found.1
  · exact found

/-- The names of the assembled release. -/
theorem released_of_mem_assembled
    {version name : String}
    (stock : Stock python expected version chosen items)
    (member : name ∈ assembled chosen items files) :
    name ∈ knownNames ∨ ∃ package, ∃ role : Role,
      isFinalPackage package = true ∧ name = role.nameOf package := by
  rcases (mem_assembled stock).mp member with ⟨node, listed⟩ | ⟨item, itemMember, role, same⟩
  · exact .inl (ListFiles.name_mem_knownNames listed)
  · exact .inr ⟨item.name, role, stock.isFinalItem itemMember, same⟩

/-- There are files only in the assembled release. -/
theorem assembled_regular
    {version : String}
    (stock : Stock python expected version chosen items) :
    Regular (assembled chosen items files) := by
  intro name node found
  have isKey : name ∈ assembled chosen items files :=
    AList.lookup_isSome.mp (Option.isSome_of_eq_some found)
  rcases (mem_assembled stock).mp isKey with ⟨other, listed⟩ | ⟨item, member, role, rfl⟩
  · rw [lookup_assembled_list listed, Option.some.injEq] at found
    subst found
    rcases ListFiles.mem_entries.mp listed with ⟨_, rfl⟩ | ⟨_, _, rfl⟩ | ⟨_, ⟨_, rfl⟩ | ⟨_, rfl⟩⟩ <;>
      exact ⟨_, rfl⟩
  · rw [lookup_assembled_role stock member, Option.some.injEq] at found
    exact ⟨_, found.symm⟩

/-- A collection into a directory of regular files ends with the assembled release in it. -/
theorem Collects.collect_eq
    (collects : Collects python host request out expected staged chosen items index files)
    (regular : ∀ directory, out = some directory -> Regular directory) :
    ∃ after, collect python host request out = (.ok (), some after) ∧
      ∀ name, after.lookup name =
        if name ∈ assembled chosen items files then (assembled chosen items files).lookup name
        else (prepared request staged).lookup name := by
  have member (name : String) :
      name ∈ host.listing (assembled chosen items files).keys ↔
        name ∈ assembled chosen items files :=
    (host.listing_perm _).mem_iff.trans AList.mem_keys.symm
  have releaseFiles : ∀ name ∈ host.listing (assembled chosen items files).keys,
      ∃ content, (assembled chosen items files).lookup name = some (.file content) := by
    intro name listed
    obtain ⟨node, found⟩ :=
      Option.isSome_iff_exists.mp (AList.lookup_isSome.mpr ((member name).mp listed))
    obtain ⟨content, rfl⟩ := assembled_regular collects.stock name node found
    exact ⟨content, found⟩
  have preparedFiles : ∀ name ∈ host.listing (assembled chosen items files).keys, ∀ node,
      (prepared request staged).lookup name = some node -> ∃ content, node = .file content := by
    intro name listed node found
    have released := released_of_mem_assembled collects.stock ((member name).mp listed)
    have before := lookup_prepared found
    rw [stage_of_regular regular collects.stages (notMem_stageNames released)] at before
    cases out with
    | none => simp at before
    | some directory => exact regular directory rfl name node before
  obtain ⟨after, copied, looked⟩ := copyOut_of_regular releaseFiles preparedFiles
  refine ⟨after, ?_, ?_⟩
  · rw [collects.collect_eq_copyOut, copied]
    rfl
  · intro name
    rw [looked]
    simp only [member]

/-! ## Collected releases are verified -/

/-- The packages of the output directory after a collection are the chosen ones. -/
theorem Collects.packageFiles_eq
    (collects : Collects python host request out expected staged chosen items index files)
    (regular : ∀ directory, out = some directory -> Regular directory)
    (outLocal : isRemote (host.resolve request.outDir) = false)
    {after : Directory}
    (looked : ∀ name, after.lookup name =
      if name ∈ assembled chosen items files then (assembled chosen items files).lookup name
      else (prepared request staged).lookup name) :
    packageFiles after = sorted chosen.keys := by
  have released (name : String) (isKey : name ∈ chosen) :
      name ∈ assembled chosen items files := by
    obtain ⟨item, member, rfl⟩ := List.mem_map.mp (collects.stock.mem_names.mpr isKey)
    exact (mem_assembled collects.stock).mpr (.inr ⟨item, member, .package, rfl⟩)
  -- A package that was there before is one of the sources, or it is cleaned away.
  have earlier (name : String) (isFinal : isFinalPackage name = true) (node : Node)
      (found : (prepared request staged).lookup name = some node) : name ∈ chosen := by
    cases cleaning : request.clean with
    | true =>
        have before := lookup_prepared found
        have plain : name ∉ stageNames := notMem_stageNames (.inr ⟨name, .package, isFinal, rfl⟩)
        rw [stage_of_regular regular collects.stages plain] at before
        cases out with
        | none => simp at before
        | some directory =>
            obtain ⟨content, rfl⟩ := regular directory rfl name node before
            rw [isFinalPackage, Bool.and_eq_true, List.contains_iff_mem] at isFinal
            rw [prepared, if_pos cleaning, lookup_cleanUp, Option.filter_eq_some_iff] at found
            have kept := found.2
            simp only [keptBy, isCleaned, List.contains_iff_mem.mpr isFinal.1, Bool.or_true,
              Bool.true_or, Node.isUnlinked, Bool.and_self, Bool.not_true, Bool.false_eq_true]
              at kept
    | false =>
        have before := lookup_prepared found
        cases staged with
        | none => simp at before
        | some directory =>
            rw [Option.getD_some] at before
            have listed : name ∈ packageFiles directory :=
              mem_sorted.mpr (List.mem_filter.mpr
                ⟨AList.lookup_isSome.mp (Option.isSome_of_eq_some before), isFinal⟩)
            obtain ⟨packages, offer, _, _, rfl⟩ := gather_empty_eq_ok.mp collects.gathered
            have first : allSources host request (some directory) =
                host.resolve request.outDir :: request.sources := by
              simp [allSources, cleaning, List.ne_nil_of_mem listed]
            simp only [first, offered, bind_eq_ok, Except.ok.injEq] at offer
            obtain ⟨own, opened, others, _, rfl⟩ := offer
            have isOwn : own = (packageFiles directory).map fun name =>
                { directory, location := host.resolve (host.resolve request.outDir), name } := by
              simp [sourcePackages, openSource, sourceDirectory, outLocal, host.resolve_resolve,
                List.ne_nil_of_mem listed, refuse, bind, Except.bind] at opened
              simp [← opened, host.resolve_resolve]
            refine mem_insertAll_keyed.mpr
              ⟨⟨directory, host.resolve (host.resolve request.outDir), name⟩, ?_, rfl⟩
            rw [isOwn]
            exact List.mem_append_left _ (List.mem_map_of_mem listed)
  apply sorted_eq_of_perm
  apply (List.perm_ext_iff_of_nodup (after.keys_nodup.filter _) chosen.keys_nodup).mpr
  intro name
  rw [List.mem_filter, ← AList.mem_keys, ← AList.mem_keys, ← AList.lookup_isSome, looked]
  constructor
  · rintro ⟨isSome, isFinal⟩
    split at isSome
    · rename_i member
      rcases (mem_assembled collects.stock).mp member with
        ⟨node, listed⟩ | ⟨item, itemMember, role, rfl⟩
      · rw [not_isFinalPackage_of_known (ListFiles.name_mem_knownNames listed)] at isFinal
        cases isFinal
      · rw [Role.isFinalPackage_nameOf isFinal]
        exact collects.stock.mem_names.mp (List.mem_map_of_mem itemMember)
    · obtain ⟨node, found⟩ := Option.isSome_iff_exists.mp isSome
      exact earlier name isFinal node found
  · intro isKey
    rw [if_pos (released name isKey), AList.lookup_isSome]
    exact ⟨released name isKey, collects.stock.isFinal name isKey⟩

/-- There is no carriage return in a checksum list of genuine items. -/
theorem listText_plain
    {version : String}
    {subset : List Item}
    (genuine : ∀ item ∈ subset, item.IsGenuine python expected version) :
    '\r' ∉ (listText python subset).toList := by
  induction subset with
  | nil => simp [listText]
  | cons item subset inductionHypothesis =>
      rw [List.forall_mem_cons] at genuine
      have here : '\r' ∉ (item.line python).toList :=
        Python.textOf_plain (Bundle.Genuine.line genuine.1)
      rw [listText, List.map_cons, String.join_cons, String.toList_append, List.mem_append, not_or]
      exact ⟨here, inductionHypothesis genuine.2⟩

/-- A checksum list that was written passes its check. -/
theorem checkList_of_encode
    {version location name : String}
    {directory : Directory}
    {subset : List Item}
    {content : Bytes}
    (allIn : AllIn python expected version directory subset)
    (encoded : subset ≠ [] -> python.encode (listText python subset) = some content)
    (written : subset ≠ [] -> directory.lookup name = some (.file content)) :
    checkList python directory location name (subset.map Item.record) = .ok () := by
  rw [checkList, List.isEmpty_map, checksums_eq_listText allIn]
  cases subset with
  | nil => rfl
  | cons item subset =>
      have nonempty : item :: subset ≠ [] := List.cons_ne_nil _ _
      have text := python.textOf_of_encode (encoded nonempty)
        (listText_plain fun item member => (allIn item member).2)
      have read : ArtifactPath.readText python { directory, location, name } =
          .ok (listText python (item :: subset)) :=
        ArtifactPath.readText_eq_ok.mpr
          ⟨content, ArtifactPath.readBytes_of_file (written nonempty), text⟩
      simp [read, bind_eq_ok]

/-- The index of a collection matches its packages. -/
theorem indexMatches_releaseIndex
    {scope : Scope}
    (sameVersion : scope.version = request.version)
    (revision : String)
    (dirty : Bool)
    (entries : List Json) :
    indexMatches scope expected entries
      (releaseIndex host request expected revision dirty entries) = .ok true := by
  simp only [indexMatches, Json.get, Json.getOr, releaseIndex, List.lookup_cons, List.lookup_nil,
    sameVersion]
  simp [bind, Except.bind, Json.equals_self]

/-- The names of the packages that a collection takes, and the index that it writes. -/
def collected
    (python : Python)
    (host : Host)
    (request : Request)
    (out : Option Directory) :
    Except Exception (List String × Json) := do
  let expected ← expectedSource python host request.version request.revision
  let staged ← stage host out
  let chosen ← gather python host request expected staged 0 (allSources host request staged) ∅
  let (_, _, index) ← describe python host request expected chosen
  .ok (sorted chosen.keys, index)

theorem Collects.collected_eq
    (collects : Collects python host request out expected staged chosen items index files) :
    collected python host request out = .ok (sorted chosen.keys, index) := by
  obtain ⟨copied, records, described⟩ := collects.described
  simp [collected, collects.source, collects.stages, collects.gathered, described, bind,
    Except.bind]

/-- The Apple commands aside, nothing but the release decides. -/
def AppleChecksPass (scope : Scope) (platform : Platform) : Prop :=
  scope.platformChecks = true ->
    (scope.macosOnly = true -> platform.system = "darwin") ∧
      ∀ command, platform.run command = .ok ()

theorem forM_eq_ok
    {run : α -> Except ε Unit}
    {values : List α}
    (passes : ∀ value, run value = .ok ()) :
    values.forM run = .ok () := by
  induction values with
  | nil => rfl
  | cons value values inductionHypothesis =>
      change (run value >>= fun _ => values.forM run) = .ok ()
      rw [passes]
      exact inductionHypothesis

/-- What was collected into a directory of regular files is verified, if it has the packages
that the scope of the verification requires. -/
theorem collected_release_verifies
    {scope : Scope}
    {platform : Platform}
    {after : Directory}
    {names required : List String}
    {macos location : String}
    (regular : ∀ directory, out = some directory -> Regular directory)
    (outLocal : isRemote (host.resolve request.outDir) = false)
    (succeeds : collect python host request out = (.ok (), some after))
    (isCollected : collected python host request out = .ok (names, index))
    (roundTrip : python.loads (python.dumps index ++ "\n") = some index)
    (sameVersion : scope.version = request.version)
    (sameRevision : scope.revision = request.revision)
    (requires : requiredNames python scope = .ok required)
    (hasMacosName : macosName python scope.version = .ok macos)
    (complete : (∀ name, name ∈ names ↔ name ∈ required) ∨
      ∀ name, name ∈ names ↔ name ∈ required ∨ name = macos)
    (applePasses : AppleChecksPass scope platform) :
    verify python host scope platform after location = .ok () := by
  obtain ⟨expected, staged, chosen, items, index', files, collects⟩ :=
    exists_collects_of_ok succeeds
  rw [collects.collected_eq, Except.ok.injEq, Prod.mk.injEq] at isCollected
  obtain ⟨rfl, rfl⟩ := isCollected
  obtain ⟨after', succeeds', looked⟩ := collects.collect_eq regular
  rw [succeeds, Prod.mk.injEq, Option.some.injEq] at succeeds'
  obtain ⟨_, rfl⟩ := succeeds'
  have found := collects.packageFiles_eq regular outLocal looked
  have lookedList {name : String} {node : Node} (listed : (name, node) ∈ files.entries items) :
      after.lookup name = some node := by
    have member : name ∈ assembled chosen items files :=
      (mem_assembled collects.stock).mpr (.inl ⟨node, listed⟩)
    rw [looked, if_pos member, lookup_assembled_list listed]
  have allIn : AllIn python expected scope.version after items := by
    intro item member
    refine ⟨Item.isIn_iff.mpr fun role => ?_, sameVersion ▸ collects.stock.genuine item member⟩
    have isKey : role.nameOf item.name ∈ assembled chosen items files :=
      (mem_assembled collects.stock).mpr (.inr ⟨item, member, role, rfl⟩)
    rw [looked, if_pos isKey, lookup_assembled_role collects.stock member]
  have readIndex {name : String} (listed : (name, .file files.index) ∈ files.entries items) :
      ArtifactPath.readJson python { directory := after, location, name } = .ok index' :=
    ArtifactPath.readJson_eq_ok.mpr
      ⟨_, ArtifactPath.readBytes_of_file (lookedList listed),
        python.jsonOf_of_encode collects.encode.index roundTrip⟩
  obtain ⟨copied, records, described⟩ := collects.described
  obtain ⟨revision, status, _, _, _, _, isIndex⟩ := (describe_eq_ok collects.stock).mp described
  refine verify_eq_ok.mpr ⟨expected, required, macos, items, index', ?_, ?_, requires,
    hasMacosName, ?_, ?_, ?_, allIn, ?_, ?_, ?_, ?_, ?_⟩
  · -- The machine.
    by_cases checks : scope.platformChecks = true
    · cases macosOnly : scope.macosOnly with
      | true => simp [(applePasses checks).1 macosOnly]
      | false => rfl
    · simp [checks]
  · rw [sameVersion, sameRevision]
    exact collects.source
  · -- Every required package was collected.
    intro name isRequired
    rw [found]
    rcases complete with exact | withMacos
    · exact (exact name).mpr isRequired
    · exact (withMacos name).mpr (.inl isRequired)
  · intro name listed
    rw [found] at listed
    rcases complete with exact | withMacos
    · exact .inl ((exact name).mp listed)
    · exact (withMacos name).mp listed
  · rw [found, collects.stock.names]
  · exact readIndex (ListFiles.mem_entries.mpr (.inl ⟨rfl, rfl⟩))
  · rw [isIndex]
    exact indexMatches_releaseIndex sameVersion _ _ _
  · -- The checksum lists.
    apply checkList_of_encode (allIn.platformItems false) collects.encode.linux
    intro nonempty
    exact lookedList (ListFiles.mem_entries.mpr (.inr (.inl ⟨nonempty, rfl, rfl⟩)))
  · apply checkList_of_encode (allIn.platformItems true) collects.encode.macos
    intro nonempty
    exact lookedList (ListFiles.mem_entries.mpr (.inr (.inr ⟨nonempty, .inl ⟨rfl, rfl⟩⟩)))
  · -- The macOS package has its own copy of the index.
    intro hasMacos
    rw [found, ← collects.stock.names] at hasMacos
    have nonempty : platformItems true items ≠ [] :=
      platformItems_ne_nil allIn hasMacos true (by simp [hasMacosName])
    have read := readIndex (ListFiles.mem_entries.mpr
      (.inr (.inr ⟨nonempty, .inr ⟨rfl, rfl⟩⟩)))
    rw [checkMacos, read]
    by_cases checks : scope.platformChecks = true
    · have passes := (applePasses checks).2
      by_cases darwin : platform.system = "darwin"
      · simp only [checks, darwin, beq_self_eq_true, Bool.and_self, if_true]
        simpa [Json.equals_self, refuse, bind, Except.bind] using forM_eq_ok passes
      · simp [darwin, Json.equals_self, refuse, bind, Except.bind, pure, Except.pure]
    · simp [checks, Json.equals_self, refuse, bind, Except.bind, pure, Except.pure]

end Collection

namespace SampleRelease

/-- The collection of macOS packages from some sources. -/
def request (sources : List String) : Request where
  outDir := "/out"
  sources := sources
  version := "0.1.2"
  revision := "HEAD"
  clean := false
  macosOnly := true

/-- The package of the builder. -/
def builderPackage : ArtifactPath where
  directory := builder
  location := "/builder"
  name := packageName

def chosen : Chosen := AList.insert packageName builderPackage ∅

def listFiles : ListFiles where
  index := utf8 (indexText ++ "\n")
  linux := []
  macos := utf8 lineText

theorem builderPackage_accepted
    {sources : List String} :
    Accepted python (request sources) source builderPackage :=
  ⟨item, rfl, ⟨rfl, rfl, rfl⟩, item_isGenuine, rfl⟩

/-- The sample package is collected from some sources that offer nothing else. -/
theorem collects_of_gathered
    {sources : List String}
    {out : Option Directory}
    (gathered : gather python host (request sources) source out 0
      (allSources host (request sources) out) ∅ = .ok chosen) :
    Collects python host (request sources) out source out chosen [item] index listFiles := by
  have stock : Stock python source (request sources).version chosen [item] :=
    { names := rfl
      isFinal := by
        intro name member
        rw [chosen, AList.mem_insert] at member
        rcases member with rfl | none
        · decide
        · cases none
      chosenName := by
        intro name package looked
        by_cases same : name = packageName
        · subst same
          rw [chosen, AList.lookup_insert, Option.some.injEq] at looked
          rw [← looked]
          rfl
        · rw [chosen, AList.lookup_insert_ne same] at looked
          cases looked
      holds := by
        intro other member
        rw [List.mem_singleton.mp member]
        exact ⟨builderPackage, rfl, rfl, rfl, rfl⟩
      genuine := by
        intro other member
        rw [List.mem_singleton.mp member]
        exact item_isGenuine }
  exact
    { source := rfl
      stages := rfl
      gathered := gathered
      stock := stock
      nonempty := List.cons_ne_nil _ _
      described := by
        refine ⟨_, _, (describe_eq_ok stock).mpr
          ⟨source.sourceCommit, "", rfl, rfl, rfl, rfl, ?_⟩⟩
        rw [List.map_singleton, entry_item]
        rfl
      encode :=
        { index := rfl
          linux := fun nonempty => absurd rfl nonempty
          macos := fun _ => rfl } }

/-- The sample package is collected into a directory without packages. -/
theorem collects
    {out : Option Directory}
    (noPackages : ∀ directory, out = some directory -> packageFiles directory = []) :
    Collects python host (request ["/builder"]) out source out chosen [item] index listFiles := by
  have sources : allSources host (request ["/builder"]) out = ["/builder"] := by
    cases out with
    | none => rfl
    | some directory => simp [allSources, noPackages directory rfl, request]
  refine collects_of_gathered ?_
  rw [sources]
  refine gather_empty_eq_ok.mpr ⟨[builderPackage], rfl, ?_, ?_, rfl⟩
  · intro package member
    rw [List.mem_singleton.mp member]
    exact builderPackage_accepted
  · intro package member other otherMember _
    rw [List.mem_singleton.mp member, List.mem_singleton.mp otherMember]

end SampleRelease

open SampleRelease in
theorem collected_release_verifies_sample :
    ∃ after, collect python host (request ["/builder"]) none = (.ok (), some after) ∧
      verify python host scope platform after "/out" = .ok () := by
  have none_regular : ∀ directory, none = some directory -> Regular directory := by
    simp
  have sample : Collects python host (request ["/builder"]) none source none chosen [item] index
      listFiles := collects (by simp)
  obtain ⟨after, succeeds, _⟩ := sample.collect_eq none_regular
  refine ⟨after, succeeds, ?_⟩
  exact collected_release_verifies none_regular rfl succeeds sample.collected_eq
    ((python_loads _).trans loads_indexText) rfl rfl rfl rfl (.inl fun _ => Iff.rfl)
    (fun checks => nomatch checks)

end Release
end MacosAuth
