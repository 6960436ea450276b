import MacosAuth.Release.Gathering

/-!
# The assembled release and the output directory

Out of the chosen packages `collect` assembles a directory that holds each package with its
sidecars, the index, and the checksum lists of the platforms that are present. This directory
is then copied over the output directory. Where the output directory has regular files only,
all names of the release are replaced and all others stay.
-/

namespace MacosAuth
namespace Release

open Codec (Bytes)
open Collections
open Protocol (bind_eq_ok)

variable {python : Python} {host : Host} {request : Request} {expected : Description}
  {version : String} {chosen : Chosen} {items : List Item}

/-! ## The chosen packages as items -/

/-- The items of the chosen packages, in the order of their names. -/
structure Stock
    (python : Python)
    (expected : Description)
    (version : String)
    (chosen : Chosen)
    (items : List Item) :
    Prop where
  names : items.map Item.name = sorted chosen.keys
  isFinal : ∀ name ∈ chosen, isFinalPackage name = true
  chosenName : ∀ name package, chosen.lookup name = some package -> package.name = name
  holds : ∀ item ∈ items, ∃ package, chosen.lookup item.name = some package ∧
    package.Holds item.bundle
  genuine : ∀ item ∈ items, item.IsGenuine python expected version

theorem mem_sorted {names : List String} {name : String} : name ∈ sorted names ↔ name ∈ names :=
  List.mem_insertionSort _

/-- Sorting does not depend on the order of what is sorted. -/
theorem sorted_eq_of_perm {names others : List String} (perm : names.Perm others) :
    sorted names = sorted others := by
  apply List.Perm.eq_of_pairwise' (List.pairwise_insertionSort _ _) (List.pairwise_insertionSort _ _)
  exact (List.perm_insertionSort _ _).trans (perm.trans (List.perm_insertionSort _ _).symm)

/-- If there is an item for each value of a list, then there is a list of such items. -/
theorem exists_items_of_forall
    {nameOf : β -> α}
    {P : β -> Prop}
    {names : List α}
    (each : ∀ name ∈ names, ∃ item, nameOf item = name ∧ P item) :
    ∃ items : List β, items.map nameOf = names ∧ ∀ item ∈ items, P item := by
  induction names with
  | nil => exact ⟨[], rfl, by simp⟩
  | cons name names inductionHypothesis =>
      rw [List.forall_mem_cons] at each
      obtain ⟨item, rfl, here⟩ := each.1
      obtain ⟨items, rfl, rest⟩ := inductionHypothesis each.2
      exact ⟨item :: items, rfl, List.forall_mem_cons.mpr ⟨here, rest⟩⟩

theorem Stock.mem_names (stock : Stock python expected version chosen items) {name : String} :
    name ∈ items.map Item.name ↔ name ∈ chosen := by
  rw [stock.names, mem_sorted, AList.mem_keys]

theorem Stock.isFinalItem
    (stock : Stock python expected version chosen items)
    {item : Item}
    (member : item ∈ items) :
    isFinalPackage item.name = true :=
  stock.isFinal _ (stock.mem_names.mp (List.mem_map_of_mem member))

/-- There is one item with a name. -/
theorem Stock.item_unique
    (stock : Stock python expected version chosen items)
    {item : Item}
    (member : item ∈ items)
    {package : ArtifactPath}
    (looked : chosen.lookup item.name = some package) :
    package.Holds item.bundle := by
  obtain ⟨other, found, holds⟩ := stock.holds item member
  rw [looked, Option.some.injEq] at found
  exact found ▸ holds

/-! ## Copies of the chosen packages -/

/-- The entries of the files of a package. -/
def ArtifactPath.files (package : ArtifactPath) : List (String × Node) :=
  [Role.package, .metadata, .checksum].map fun role =>
    (role.nameOf package.name,
      (package.directory.lookup (role.nameOf package.name)).getD (.file []))

theorem copyAside_of_file
    {assembled : Directory}
    {path : ArtifactPath}
    {content : Bytes}
    (file : path.node = some (.file content)) :
    copyAside assembled path = .ok (assembled.insert path.name (path.node.getD (.file []))) := by
  simp [copyAside, ArtifactPath.readBytes_of_file file, file, bind, Except.bind]

theorem copyPackage_eq_ok
    {assembled : Directory}
    {package : ArtifactPath}
    {bundle : Bundle}
    (holds : package.Holds bundle) :
    copyPackage assembled package = .ok (insertAll package.files assembled) := by
  simp only [copyPackage, copyAside_of_file holds.1, copyAside_of_file holds.2.1,
    copyAside_of_file holds.2.2, bind, Except.bind]
  rfl

theorem copyPackages_eq_ok
    {packages : List ArtifactPath}
    {assembled : Directory}
    (hold : ∀ package ∈ packages, ∃ bundle, package.Holds bundle) :
    packages.foldlM copyPackage assembled =
      .ok (insertAll (packages.flatMap ArtifactPath.files) assembled) := by
  induction packages generalizing assembled with
  | nil => rfl
  | cons package packages inductionHypothesis =>
      rw [List.forall_mem_cons] at hold
      obtain ⟨bundle, holds⟩ := hold.1
      rw [List.foldlM_cons, copyPackage_eq_ok holds, List.flatMap_cons, insertAll_append]
      exact inductionHypothesis hold.2

/-- The entries of the chosen packages. -/
def chosenFiles (chosen : Chosen) : List (String × Node) :=
  (chosen.entries.map fun entry => entry.2).flatMap ArtifactPath.files

theorem mem_chosenFiles
    (stock : Stock python expected version chosen items)
    {name : String}
    {node : Node} :
    (name, node) ∈ chosenFiles chosen ↔
      ∃ item ∈ items, ∃ role : Role, name = role.nameOf item.name ∧
        node = .file (item.bundle.content role) := by
  have isFiles {package : ArtifactPath} {bundle : Bundle} (holds : package.Holds bundle) :
      (name, node) ∈ package.files ↔ ∃ role : Role, name = role.nameOf package.name ∧
        node = .file (bundle.content role) := by
    rw [ArtifactPath.holds_iff] at holds
    simp only [ArtifactPath.files, List.mem_map, holds, Option.getD_some, Prod.mk.injEq]
    constructor
    · rintro ⟨role, _, rfl, rfl⟩
      exact ⟨role, rfl, rfl⟩
    · rintro ⟨role, rfl, rfl⟩
      exact ⟨role, by cases role <;> simp, rfl, rfl⟩
  simp only [chosenFiles, List.mem_flatMap, List.mem_map]
  constructor
  · rintro ⟨_, ⟨⟨key, package⟩, member, rfl⟩, listed⟩
    have looked : chosen.lookup key = some package := AList.mem_lookup_iff.mpr member
    have isKey : key ∈ chosen := AList.lookup_isSome.mp (Option.isSome_of_eq_some looked)
    obtain ⟨item, itemMember, rfl⟩ := List.mem_map.mp (stock.mem_names.mpr isKey)
    obtain ⟨role, rfl, rfl⟩ := (isFiles (stock.item_unique itemMember looked)).mp listed
    rw [stock.chosenName _ _ looked]
    exact ⟨item, itemMember, role, rfl, rfl⟩
  · rintro ⟨item, member, role, rfl, rfl⟩
    obtain ⟨package, looked, holds⟩ := stock.holds item member
    refine ⟨package, ⟨⟨item.name, package⟩, AList.mem_lookup_iff.mp looked, rfl⟩, ?_⟩
    refine (isFiles holds).mpr ⟨role, ?_, rfl⟩
    rw [stock.chosenName _ _ looked]

/-- The copies of the chosen packages. -/
theorem copyChosen_eq_ok (stock : Stock python expected version chosen items) :
    copyChosen chosen = .ok (insertAll (chosenFiles chosen) ∅) := by
  apply copyPackages_eq_ok
  intro package member
  obtain ⟨⟨key, _⟩, entry, rfl⟩ := List.mem_map.mp member
  have looked : chosen.lookup key = some _ := AList.mem_lookup_iff.mpr entry
  have isKey : key ∈ chosen := AList.lookup_isSome.mp (Option.isSome_of_eq_some looked)
  obtain ⟨item, itemMember, rfl⟩ := List.mem_map.mp (stock.mem_names.mpr isKey)
  exact ⟨item.bundle, stock.item_unique itemMember looked⟩

/-- Items of one stock with the same name are the same for their bundle. -/
theorem Stock.bundle_unique
    (stock : Stock python expected version chosen items)
    {item other : Item}
    (member : item ∈ items)
    (otherMember : other ∈ items)
    (sameName : item.name = other.name) :
    item.bundle = other.bundle := by
  obtain ⟨package, looked, holds⟩ := stock.holds item member
  exact holds.unique (stock.item_unique otherMember (sameName ▸ looked))

theorem lookup_chosenFiles
    (stock : Stock python expected version chosen items)
    {item : Item}
    (member : item ∈ items)
    (role : Role)
    {kept : Directory} :
    (insertAll (chosenFiles chosen) kept).lookup (role.nameOf item.name) =
      some (.file (item.bundle.content role)) := by
  apply lookup_insertAll
  · exact (mem_chosenFiles stock).mpr ⟨item, member, role, rfl, rfl⟩
  · intro other listed
    obtain ⟨otherItem, otherMember, otherRole, sameName, rfl⟩ := (mem_chosenFiles stock).mp listed
    obtain ⟨rfl, same⟩ := Role.nameOf_inj (stock.isFinalItem member)
      (stock.isFinalItem otherMember) sameName
    rw [stock.bundle_unique member otherMember same]

theorem mem_chosen_iff
    (stock : Stock python expected version chosen items)
    {name : String} :
    name ∈ insertAll (chosenFiles chosen) ∅ ↔
      ∃ item ∈ items, ∃ role : Role, name = role.nameOf item.name := by
  rw [mem_insertAll]
  constructor
  · rintro (listed | impossible)
    · obtain ⟨⟨_, node⟩, entry, rfl⟩ := List.mem_map.mp listed
      obtain ⟨item, member, role, same, _⟩ := (mem_chosenFiles stock).mp entry
      exact ⟨item, member, role, same⟩
    · exact absurd impossible (AList.notMem_empty _)
  · rintro ⟨item, member, role, rfl⟩
    exact .inl (List.mem_map_of_mem
      ((mem_chosenFiles stock).mpr ⟨item, member, role, rfl, rfl⟩))

/-! ## The index and the checksum lists -/

/-- The contents of the index and of the two checksum lists. -/
structure ListFiles where
  index : Bytes
  linux : Bytes
  macos : Bytes

namespace ListFiles

/-- The files hold the index, and the lists of the platforms that are present. -/
structure Encode (python : Python) (items : List Item) (index : Json) (files : ListFiles) :
    Prop where
  index : python.encode (python.dumps index ++ "\n") = some files.index
  linux : platformItems false items ≠ [] ->
    python.encode (listText python (platformItems false items)) = some files.linux
  macos : platformItems true items ≠ [] ->
    python.encode (listText python (platformItems true items)) = some files.macos

/-- The entry of the checksum list for Linux, if there are packages for it. -/
def linuxEntries (subset : List Item) (linux : Bytes) : List (String × Node) :=
  if subset = [] then [] else [("SHA256SUMS", .file linux)]

/-- The entries for macOS, if there is a package for it. -/
def macosEntries (subset : List Item) (macos index : Bytes) : List (String × Node) :=
  if subset = [] then []
  else [("SHA256SUMS-darwin-arm64", .file macos), ("BUILD-METADATA-darwin-arm64.txt", .file index)]

/-- The entries of the files. -/
def entries (items : List Item) (files : ListFiles) : List (String × Node) :=
  ("BUILD-METADATA.txt", .file files.index) :: linuxEntries (platformItems false items) files.linux ++
    macosEntries (platformItems true items) files.macos files.index

variable {files : ListFiles} {name : String} {node : Node}

theorem mem_entries :
    (name, node) ∈ files.entries items ↔
      (name = "BUILD-METADATA.txt" ∧ node = .file files.index) ∨
      (platformItems false items ≠ [] ∧ name = "SHA256SUMS" ∧ node = .file files.linux) ∨
      (platformItems true items ≠ [] ∧
        ((name = "SHA256SUMS-darwin-arm64" ∧ node = .file files.macos) ∨
          (name = "BUILD-METADATA-darwin-arm64.txt" ∧ node = .file files.index))) := by
  unfold entries linuxEntries macosEntries
  split <;> split <;> simp_all

theorem name_mem_knownNames (listed : (name, node) ∈ files.entries items) :
    name ∈ knownNames := by
  rcases mem_entries.mp listed with ⟨rfl, _⟩ | ⟨_, rfl, _⟩ | ⟨_, ⟨rfl, _⟩ | ⟨rfl, _⟩⟩ <;>
    simp [knownNames]

theorem node_unique
    {other : Node}
    (listed : (name, node) ∈ files.entries items)
    (otherListed : (name, other) ∈ files.entries items) :
    other = node := by
  rw [mem_entries] at listed otherListed
  rcases listed with ⟨rfl, rfl⟩ | ⟨_, rfl, rfl⟩ | ⟨_, ⟨rfl, rfl⟩ | ⟨rfl, rfl⟩⟩ <;>
    simp_all

end ListFiles

theorem writeText_eq_ok
    {before after : Directory}
    {name text : String} :
    writeText python before name text = .ok after ↔
      ∃ content, python.encode text = some content ∧
        after = before.insert name (.file content) := by
  unfold writeText
  cases python.encode text <;> simp [eq_comm]

theorem writeLinuxList_eq_ok
    {before after : Directory}
    {subset : List Item}
    (allIn : AllIn python expected version before subset)
    {directory : Directory} :
    writeLinuxList python directory (subset.map Item.record) = .ok after ↔
      ∃ linux, (subset ≠ [] -> python.encode (listText python subset) = some linux) ∧
        after = insertAll (ListFiles.linuxEntries subset linux) directory := by
  rw [writeLinuxList, List.isEmpty_map, checksums_eq_listText allIn]
  cases subset with
  | nil => simp [ListFiles.linuxEntries, eq_comm]
  | cons item subset => simp [writeText_eq_ok, ListFiles.linuxEntries]

theorem writeMacosList_eq_ok
    {before after : Directory}
    {subset : List Item}
    (allIn : AllIn python expected version before subset)
    {directory : Directory}
    {index : Json}
    {indexFile : Bytes}
    (indexEncoded : python.encode (python.dumps index ++ "\n") = some indexFile) :
    writeMacosList python directory (subset.map Item.record) index = .ok after ↔
      ∃ macos, (subset ≠ [] -> python.encode (listText python subset) = some macos) ∧
        after = insertAll (ListFiles.macosEntries subset macos indexFile) directory := by
  rw [writeMacosList, List.isEmpty_map, checksums_eq_listText allIn]
  cases subset with
  | nil => simp [ListFiles.macosEntries, eq_comm]
  | cons item subset =>
      simp [writeJson, bind_eq_ok, writeText_eq_ok, indexEncoded, ListFiles.macosEntries]

/-- Writing the lists puts in the index and the lists of the platforms that are present. -/
theorem writeLists_eq_ok
    {before after : Directory}
    {index : Json}
    (allIn : AllIn python expected version before items) :
    writeLists python before (items.map Item.record) index = .ok after ↔
      ∃ files : ListFiles, files.Encode python items index ∧
        after = insertAll (files.entries items) before := by
  simp only [writeLists, writeJson, platformRecords_map, bind_eq_ok, writeText_eq_ok,
    writeLinuxList_eq_ok (allIn.platformItems false)]
  constructor
  · rintro ⟨_, ⟨indexFile, indexEncoded, rfl⟩, _, ⟨linux, linuxEncoded, rfl⟩, written⟩
    rw [writeMacosList_eq_ok (allIn.platformItems true) indexEncoded] at written
    obtain ⟨macos, macosEncoded, rfl⟩ := written
    refine ⟨⟨indexFile, linux, macos⟩, ⟨indexEncoded, linuxEncoded, macosEncoded⟩, ?_⟩
    rw [ListFiles.entries, insertAll_append, insertAll_cons]
  · rintro ⟨files, encode, rfl⟩
    refine ⟨_, ⟨files.index, encode.index, rfl⟩, _, ⟨files.linux, encode.linux, rfl⟩, ?_⟩
    refine (writeMacosList_eq_ok (allIn.platformItems true) encode.index).mpr
      ⟨files.macos, encode.macos, ?_⟩
    rw [ListFiles.entries, insertAll_append, insertAll_cons]

/-! ## The assembled release -/

/-- The directory that is assembled from the chosen packages and the lists. -/
def assembled (chosen : Chosen) (items : List Item) (files : ListFiles) : Directory :=
  insertAll (files.entries items) (insertAll (chosenFiles chosen) ∅)

section Assembled

variable {files : ListFiles}

theorem lookup_assembled_role
    (stock : Stock python expected version chosen items)
    {item : Item}
    (member : item ∈ items)
    (role : Role) :
    (assembled chosen items files).lookup (role.nameOf item.name) =
      some (.file (item.bundle.content role)) := by
  rw [assembled, lookup_insertAll_of_notMem, lookup_chosenFiles stock member]
  intro isKey
  obtain ⟨⟨name, node⟩, listed, same⟩ := List.mem_map.mp isKey
  have known := ListFiles.name_mem_knownNames listed
  rw [show name = role.nameOf item.name from same] at known
  exact Role.nameOf_notMem_knownNames (stock.isFinalItem member) known

theorem lookup_assembled_list
    {name : String}
    {node : Node}
    (listed : (name, node) ∈ files.entries items) :
    (assembled chosen items files).lookup name = some node :=
  lookup_insertAll listed fun _ otherListed => ListFiles.node_unique listed otherListed

theorem mem_assembled
    (stock : Stock python expected version chosen items)
    {name : String} :
    name ∈ assembled chosen items files ↔
      (∃ node, (name, node) ∈ files.entries items) ∨
        ∃ item ∈ items, ∃ role : Role, name = role.nameOf item.name := by
  rw [assembled, mem_insertAll, mem_chosen_iff stock]
  simp

/-- The items are in the directory before the lists are written. -/
theorem allIn_chosenFiles (stock : Stock python expected version chosen items) :
    AllIn python expected version (insertAll (chosenFiles chosen) ∅) items :=
  fun item member => ⟨Item.isIn_iff.mpr fun role => lookup_chosenFiles stock member role,
    stock.genuine item member⟩

end Assembled

/-- How the chosen packages are described. -/
theorem describe_eq_ok
    {copied : Directory}
    {records : List Json}
    {index : Json}
    (stock : Stock python expected request.version chosen items) :
    describe python host request expected chosen = .ok (copied, records, index) ↔
      ∃ revision status,
        host.git ["rev-parse", "HEAD"] = .ok revision ∧
        host.git ["status", "--porcelain", "--untracked-files=all"] = .ok status ∧
        copied = insertAll (chosenFiles chosen) ∅ ∧ records = items.map Item.record ∧
        index = releaseIndex host request expected revision (status != "")
          (items.map (Item.entry python)) := by
  have read : ((sorted chosen.keys).mapM fun name =>
      readRecord python
        { directory := insertAll (chosenFiles chosen) ∅, location := s!"{host.work}/assembled",
          name } (some expected) (some request.version) true) = .ok (items.map Item.record) :=
    readRecords_eq_ok.mpr ⟨items, stock.names, rfl, allIn_chosenFiles stock⟩
  simp only [describe, bind_eq_ok, copyChosen_eq_ok stock, Except.ok.injEq, exists_eq_left', read,
    mapM_indexEntry _ (allIn_chosenFiles stock), Prod.mk.injEq]
  constructor
  · rintro ⟨revision, hasRevision, status, hasStatus, rfl, rfl, rfl⟩
    exact ⟨revision, status, hasRevision, hasStatus, rfl, rfl, rfl⟩
  · rintro ⟨revision, status, hasRevision, hasStatus, rfl, rfl, rfl⟩
    exact ⟨revision, hasRevision, status, hasStatus, rfl, rfl, rfl⟩

theorem Stock.keys_isEmpty (stock : Stock python expected version chosen items) :
    chosen.keys.isEmpty = false ↔ items ≠ [] := by
  have sameLength := congrArg List.length stock.names
  rw [List.length_map, sorted, List.length_insertionSort] at sameLength
  rw [List.isEmpty_eq_false_iff, ne_eq, ← List.length_eq_zero_iff, ← sameLength,
    List.length_eq_zero_iff]

/-- What is assembled. -/
theorem assemble_eq_ok
    {release : Directory}
    (stock : Stock python expected request.version chosen items) :
    assemble python host request expected chosen = .ok release ↔
      items ≠ [] ∧ ∃ copied records index files,
        describe python host request expected chosen = .ok (copied, records, index) ∧
        files.Encode python items index ∧ release = assembled chosen items files := by
  simp only [assemble, bind_eq_ok, refuse_eq_ok, exists_const, stock.keys_isEmpty, Prod.exists]
  refine and_congr_right fun _ => exists_congr fun copied => exists_congr fun records =>
    exists_congr fun index => ?_
  simp only [exists_and_left]
  refine and_congr_right fun described => ?_
  obtain ⟨_, _, _, _, rfl, rfl, rfl⟩ := (describe_eq_ok stock).mp described
  exact writeLists_eq_ok (allIn_chosenFiles stock)

end Release
end MacosAuth
