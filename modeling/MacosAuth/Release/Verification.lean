import MacosAuth.Release.Provenance

/-!
# What a verified release is

`verify` succeeds exactly for the directories that `Verified` describes. From this follows
that the index is a root of trust: two directories that are verified with the same index hold
the same release. The index pins the names and the digests of the metadata files, each of
these pins the digest of its package, and the records pin the texts of the checksum files.
-/

namespace MacosAuth
namespace Release

open Codec (Bytes)
open Protocol (bind_eq_ok)

section Verification

variable {python : Python} {host : Host} {scope : Scope} {platform : Platform}
  {directory : Directory} {location : String} {expected : Description} {items : List Item}

/-- What `verify` has seen when it succeeds. -/
structure Verified
    (python : Python)
    (host : Host)
    (scope : Scope)
    (platform : Platform)
    (directory : Directory)
    (location : String)
    (expected : Description)
    (required : List String)
    (macos : String)
    (items : List Item)
    (index : Json) :
    Prop where
  machine : (scope.macosOnly && scope.platformChecks && platform.system != "darwin") = false
  source : expectedSource python host scope.version scope.revision = .ok expected
  requiredNames : requiredNames python scope = .ok required
  macosName : macosName python scope.version = .ok macos
  complete : ∀ name ∈ required, name ∈ packageFiles directory
  nothingElse : ∀ name ∈ packageFiles directory, name ∈ required ∨ name = macos
  names : items.map Item.name = packageFiles directory
  allIn : AllIn python expected scope.version directory items
  read : ArtifactPath.readJson python { directory, location, name := "BUILD-METADATA.txt" } =
    .ok index
  matching : indexMatches scope expected (items.map (Item.entry python)) index = .ok true
  linuxList : checkList python directory location "SHA256SUMS"
    ((platformItems false items).map Item.record) = .ok ()
  macosList : checkList python directory location "SHA256SUMS-darwin-arm64"
    ((platformItems true items).map Item.record) = .ok ()
  macosPackage : macos ∈ packageFiles directory ->
    checkMacos python scope platform directory location macos index = .ok ()

/-- `verify` succeeds for the directories that are described so, and for no others. -/
theorem verify_eq_ok :
    verify python host scope platform directory location = .ok () ↔
      ∃ expected required macos items index, Verified python host scope platform directory
        location expected required macos items index := by
  simp only [verify, bind_eq_ok, refuse_eq_ok, exists_and_left, exists_const]
  constructor
  · rintro ⟨machine, expected, source, required, requiredNames, macos, macosName, complete,
      nothingElse, records, readRecords, index, read, entries, mapped, matching, isMatching,
      matched, ⟨⟩, linuxList, ⟨⟩, macosList, macosPackage⟩
    obtain ⟨items, names, rfl, allIn⟩ := readRecords_eq_ok.mp readRecords
    rw [mapM_indexEntry location allIn, Except.ok.injEq] at mapped
    subst mapped
    rw [Bool.not_eq_false'] at matched
    subst matched
    rw [platformRecords_map] at linuxList macosList
    refine ⟨expected, required, macos, items, index, machine, source, requiredNames, macosName,
      ?_, ?_, names, allIn, read, isMatching, linuxList, macosList, ?_⟩
    · simpa using complete
    · simpa [List.filter_eq_nil_iff, or_iff_not_imp_left] using nothingElse
    · intro found
      simpa [found] using macosPackage
  · rintro ⟨expected, required, macos, items, index, verified⟩
    refine ⟨verified.machine, expected, verified.source, required, verified.requiredNames, macos,
      verified.macosName, ?_, ?_, items.map Item.record,
      readRecords_eq_ok.mpr ⟨items, verified.names, rfl, verified.allIn⟩, index, verified.read,
      _, mapM_indexEntry location verified.allIn, true, verified.matching, rfl, (), ?_, (), ?_, ?_⟩
    · simpa using verified.complete
    · simpa [List.filter_eq_nil_iff, or_iff_not_imp_left] using verified.nothingElse
    · rw [platformRecords_map]
      exact verified.linuxList
    · rw [platformRecords_map]
      exact verified.macosList
    · split
      · rename_i found
        exact verified.macosPackage (List.contains_iff_mem.mp found)
      · rfl

/-! ## What the index pins -/

/-- An item without what its checksum file holds. -/
def Item.pinned (item : Item) : Item :=
  { item with bundle := { item.bundle with checksum := [] } }

theorem Item.eq_of_pinned
    {item other : Item}
    (same : item.pinned = other.pinned) :
    item.name = other.name ∧ item.bundle.package = other.bundle.package ∧
      item.bundle.metadata = other.bundle.metadata := by
  simp only [Item.pinned, Item.mk.injEq, Bundle.mk.injEq] at same
  exact ⟨same.1, same.2.1.1, same.2.1.2.1⟩

/-- The checksum lists do not depend on the bytes of the checksum files. -/
theorem listText_pinned (macos : Bool) (items : List Item) :
    listText python (platformItems macos (items.map Item.pinned)) =
      listText python (platformItems macos items) := by
  rw [listText, listText, platformItems, platformItems, List.filter_map, List.map_map]
  rfl

/-- Lists of items that agree item by item. -/
theorem map_pinned_eq
    {keyOf : Item -> α}
    {others : List Item}
    (sameKeys : items.map keyOf = others.map keyOf)
    (pinned : ∀ item ∈ items, ∀ other ∈ others, keyOf item = keyOf other ->
      item.pinned = other.pinned) :
    items.map Item.pinned = others.map Item.pinned := by
  induction items generalizing others with
  | nil =>
      rw [List.map_nil, eq_comm, List.map_eq_nil_iff] at sameKeys
      rw [sameKeys]
  | cons item items inductionHypothesis =>
      cases others with
      | nil => simp at sameKeys
      | cons other others =>
          rw [List.map_cons, List.map_cons, List.cons.injEq] at sameKeys
          rw [List.map_cons, List.map_cons,
            pinned item List.mem_cons_self other List.mem_cons_self sameKeys.1,
            inductionHypothesis sameKeys.2 fun item member other otherMember =>
              pinned item (List.mem_cons_of_mem _ member) other
                (List.mem_cons_of_mem _ otherMember)]

/-- The entries of an index are made of text. -/
theorem allTextual_entries (items : List Item) :
    Json.AllTextual (items.map (Item.entry python)) := by
  induction items with
  | nil => trivial
  | cons item items inductionHypothesis => exact ⟨⟨trivial, trivial, trivial⟩, inductionHypothesis⟩

/-- An index that matches has the entries of the items. -/
theorem artifacts_of_indexMatches
    {index : Json}
    (isMatching : indexMatches scope expected (items.map (Item.entry python)) index = .ok true) :
    index.get "artifacts" = .ok (.array (items.map (Item.entry python))) := by
  simp only [indexMatches, bind_eq_ok, Except.ok.injEq, Bool.and_eq_true] at isMatching
  obtain ⟨_, _, _, _, _, _, _, _, artifacts, found, _, equal⟩ := isMatching
  have textual : Json.Textual (.array (items.map (Item.entry python))) := allTextual_entries items
  rw [found, Json.equals_textual _ _ textual equal]

/-- A checksum list is there if it has a line. -/
theorem readText_of_checkList
    {name : String}
    {subset : List Item}
    (allIn : AllIn python expected scope.version directory subset)
    (nonempty : subset ≠ [])
    (checked : checkList python directory location name (subset.map Item.record) = .ok ()) :
    ArtifactPath.readText python { directory, location, name } = .ok (listText python subset) := by
  rw [checkList, if_neg (by simpa using nonempty), bind_eq_ok] at checked
  obtain ⟨text, read, same⟩ := checked
  rw [refuse_eq_ok, bne_eq_false_iff_eq, checksums_eq_listText allIn] at same
  rw [read, same]

/-- The contents of the files of a directory. -/
def Directory.contents (directory : Directory) : Set Bytes :=
  { content | ∃ name, directory.lookup name = some (.file content) }

/-- Genuine items with the same name and the same metadata file hold the same, up to the bytes
of the checksum file, if the digest tells their packages apart. -/
theorem pinned_of_metadata
    {item other : Item}
    {version : String}
    {contents : Set Bytes}
    (noCollision : contents.InjOn python.sha256)
    (member : item.bundle.package ∈ contents)
    (otherMember : other.bundle.package ∈ contents)
    (genuine : item.IsGenuine python expected version)
    (otherGenuine : other.IsGenuine python expected version)
    (sameName : item.name = other.name)
    (sameMetadata : item.bundle.metadata = other.bundle.metadata) :
    item.pinned = other.pinned := by
  have sameRecord : item.record = other.record := by
    have parsed := Bundle.Genuine.parsed genuine
    rw [sameMetadata, Bundle.Genuine.parsed otherGenuine] at parsed
    exact (Option.some.inj parsed).symm
  have sameDigest : python.sha256 item.bundle.package = python.sha256 other.bundle.package := by
    have digest := genuine.digest
    rw [sameRecord, otherGenuine.digest] at digest
    exact (Json.string.inj digest).symm
  have samePackage := noCollision member otherMember sameDigest
  obtain ⟨name, ⟨package, metadata, checksum⟩, record⟩ := item
  obtain ⟨otherName, ⟨otherPackage, otherMetadata, otherChecksum⟩, otherRecord⟩ := other
  simp_all [Item.pinned]

theorem Item.IsIn.contents
    {item : Item}
    (isIn : item.IsIn directory) :
    item.bundle.package ∈ directory.contents ∧ item.bundle.metadata ∈ directory.contents :=
  ⟨⟨_, isIn.1⟩, ⟨_, isIn.2.1⟩⟩

/-- Two items that are pinned alike have the same text in their checksum files. -/
theorem Item.IsGenuine.line_eq
    {item other : Item}
    {version : String}
    (genuine : item.IsGenuine python expected version)
    (otherGenuine : other.IsGenuine python expected version)
    (samePinned : item.pinned = other.pinned) :
    python.textOf item.bundle.checksum = python.textOf other.bundle.checksum := by
  have sameLine : item.line python = other.line python := by
    obtain ⟨sameName, samePackage, _⟩ := Item.eq_of_pinned samePinned
    rw [Item.line, Item.line, sameName, samePackage]
  rw [Bundle.Genuine.line genuine, Bundle.Genuine.line otherGenuine]
  exact congrArg some sameLine

/-- A package is listed for the platform that its name says. -/
theorem platformItems_ne_nil
    {directory : Directory}
    {version name : String}
    (allIn : AllIn python expected version directory items)
    (member : name ∈ items.map Item.name)
    (macos : Bool)
    (isMacosName : macosName python version = .ok name ↔ macos = true) :
    platformItems macos items ≠ [] := by
  obtain ⟨item, itemMember, rfl⟩ := List.mem_map.mp member
  have isMacos := (allIn item itemMember).2.isMacos_iff.trans isMacosName
  apply List.ne_nil_of_mem (a := item)
  exact List.mem_filter.mpr ⟨itemMember, beq_iff_eq.mpr (Bool.eq_iff_iff.mpr isMacos)⟩

/-- Two directories that are verified with the same index hold the same release: the same
packages with the same bytes, the same metadata files, and checksum files and lists with the
same text. -/
theorem build_metadata_pins_release
    {platform' : Platform}
    {directory' : Directory}
    {location' : String}
    (noCollision : (directory.contents ∪ directory'.contents).InjOn python.sha256)
    (sameIndex : ArtifactPath.readBytes { directory, location, name := "BUILD-METADATA.txt" } =
      ArtifactPath.readBytes
        { directory := directory', location := location', name := "BUILD-METADATA.txt" })
    (verified : verify python host scope platform directory location = .ok ())
    (verified' : verify python host scope platform' directory' location' = .ok ()) :
    packageFiles directory = packageFiles directory' ∧
      (∀ name ∈ packageFiles directory,
        (∃ package, directory.lookup name = some (.file package) ∧
          directory'.lookup name = some (.file package)) ∧
        (∃ metadata, directory.lookup (metadataName name) = some (.file metadata) ∧
          directory'.lookup (metadataName name) = some (.file metadata)) ∧
        ∃ text,
          ArtifactPath.readText python { directory, location, name := checksumName name } =
            .ok text ∧
          ArtifactPath.readText python
            { directory := directory', location := location', name := checksumName name } =
              .ok text) ∧
      ((∃ name ∈ packageFiles directory, macosName python scope.version ≠ .ok name) ->
        ∃ text,
          ArtifactPath.readText python { directory, location, name := "SHA256SUMS" } = .ok text ∧
          ArtifactPath.readText python
            { directory := directory', location := location', name := "SHA256SUMS" } =
              .ok text) ∧
      ((∃ name ∈ packageFiles directory, macosName python scope.version = .ok name) ->
        ∃ text,
          ArtifactPath.readText python
            { directory, location, name := "SHA256SUMS-darwin-arm64" } = .ok text ∧
          ArtifactPath.readText python
            { directory := directory', location := location', name := "SHA256SUMS-darwin-arm64" } =
              .ok text) := by
  obtain ⟨expected, _, _, items, index, first⟩ := verify_eq_ok.mp verified
  obtain ⟨expected', _, _, items', index', second⟩ := verify_eq_ok.mp verified'
  obtain rfl : expected' = expected := by
    have source := second.source
    rw [first.source, Except.ok.injEq] at source
    exact source.symm
  -- The index is read from the same bytes.
  obtain rfl : index' = index := by
    obtain ⟨content, read, parsed⟩ := ArtifactPath.readJson_eq_ok.mp first.read
    obtain ⟨content', read', parsed'⟩ := ArtifactPath.readJson_eq_ok.mp second.read
    rw [← sameIndex, read, Except.ok.injEq] at read'
    rw [← read', parsed, Option.some.injEq] at parsed'
    exact parsed'.symm
  have sameEntries : items.map (Item.entry python) = items'.map (Item.entry python) := by
    have artifacts := artifacts_of_indexMatches first.matching
    rw [artifacts_of_indexMatches second.matching, Except.ok.injEq, Json.array.injEq] at artifacts
    exact artifacts.symm
  have pinnedOf : ∀ item ∈ items, ∀ other ∈ items',
      item.entry python = other.entry python -> item.pinned = other.pinned := by
    intro item member other otherMember sameEntry
    obtain ⟨isIn, genuine⟩ := first.allIn item member
    obtain ⟨otherIsIn, otherGenuine⟩ := second.allIn other otherMember
    simp only [Item.entry, Json.object.injEq, List.cons.injEq, Prod.mk.injEq, Json.string.injEq,
      true_and, and_true] at sameEntry
    have sameMetadata := noCollision (.inl isIn.contents.2) (.inr otherIsIn.contents.2) sameEntry.2
    exact pinned_of_metadata noCollision (.inl isIn.contents.1) (.inr otherIsIn.contents.1) genuine
      otherGenuine sameEntry.1 sameMetadata
  have samePinned := map_pinned_eq sameEntries pinnedOf
  have sameNames : packageFiles directory = packageFiles directory' := by
    have names := congrArg (List.map Item.name) samePinned
    rw [List.map_map, List.map_map] at names
    rw [← first.names, ← second.names]
    exact names
  have sameLists (macos : Bool) :
      listText python (platformItems macos items) =
        listText python (platformItems macos items') := by
    rw [← listText_pinned, samePinned, listText_pinned]
  have bothLists (macos : Bool) (list name : String)
      (listed : name ∈ packageFiles directory)
      (isMacosName : macosName python scope.version = .ok name ↔ macos = true)
      (checked : checkList python directory location list
        ((platformItems macos items).map Item.record) = .ok ())
      (checked' : checkList python directory' location' list
        ((platformItems macos items').map Item.record) = .ok ()) :
      ∃ text, ArtifactPath.readText python { directory, location, name := list } = .ok text ∧
        ArtifactPath.readText python
          { directory := directory', location := location', name := list } = .ok text := by
    refine ⟨_, readText_of_checkList (first.allIn.platformItems macos) ?_ checked, ?_⟩
    · exact platformItems_ne_nil first.allIn (first.names ▸ listed) macos isMacosName
    · rw [sameLists]
      refine readText_of_checkList (second.allIn.platformItems macos) ?_ checked'
      exact platformItems_ne_nil second.allIn (second.names ▸ sameNames ▸ listed) macos isMacosName
  refine ⟨sameNames, ?_, ?_, ?_⟩
  · intro name listed
    rw [← first.names] at listed
    obtain ⟨item, member, rfl⟩ := List.mem_map.mp listed
    have pinnedMember : item.pinned ∈ items'.map Item.pinned :=
      samePinned ▸ List.mem_map_of_mem member
    obtain ⟨other, otherMember, same⟩ := List.mem_map.mp pinnedMember
    obtain ⟨isIn, genuine⟩ := first.allIn item member
    obtain ⟨otherIsIn, otherGenuine⟩ := second.allIn other otherMember
    obtain ⟨sameName, samePackage, sameMetadata⟩ := Item.eq_of_pinned same
    refine ⟨⟨_, isIn.1, ?_⟩, ⟨_, isIn.2.1, ?_⟩, item.line python, ?_, ?_⟩
    · rw [← sameName, ← samePackage]
      exact otherIsIn.1
    · rw [← sameName, ← sameMetadata]
      exact otherIsIn.2.1
    · exact ArtifactPath.readText_eq_ok.mpr
        ⟨_, ArtifactPath.readBytes_of_file isIn.2.2, Bundle.Genuine.line genuine⟩
    · rw [← sameName]
      refine ArtifactPath.readText_eq_ok.mpr
        ⟨_, ArtifactPath.readBytes_of_file otherIsIn.2.2, ?_⟩
      rw [otherGenuine.line_eq genuine same]
      exact Bundle.Genuine.line genuine
  · rintro ⟨name, listed, other⟩
    exact bothLists false "SHA256SUMS" name listed (by simp [other]) first.linuxList
      second.linuxList
  · rintro ⟨name, listed, isMacosName⟩
    exact bothLists true "SHA256SUMS-darwin-arm64" name listed (by simp [isMacosName])
      first.macosList second.macosList

end Verification

/-! ## A sample release -/

namespace SampleRelease

def packageName : String := "macos-auth-0.1.2-darwin-arm64.pkg"

def package : Bytes := [112, 107, 103]

def packageDigest : String := "e0ce1a7f3f76d7bfda0ffdae6e0226aa63b3009c4c4a770c321876aecad0a6c1"

def source : Description where
  sourceCommit := "c0c0c0c0c0c0c0c0c0c0c0c0c0c0c0c0c0c0c0c0"
  sourceTree := "3e3e3e3e3e3e3e3e3e3e3e3e3e3e3e3e3e3e3e3e"
  sourceArchiveSha256 := "e3b0c44298fc1c149afbf4c8996fb92427ae41e4649b934ca495991b7852b855"

/-- Lines of text. -/
def unlines (lines : List String) : String :=
  String.join (lines.map fun line => line ++ "\n")

/-- The metadata file of the package. -/
def metadataText : String :=
  unlines
    ["\x7b",
      "  \"arch\": \"arm64\",",
      "  \"artifact\": \"macos-auth-0.1.2-darwin-arm64.pkg\",",
      "  \"distro\": \"darwin\",",
      "  \"notarized_at_utc\": \"2026-01-02T03:04:05Z\",",
      "  \"schema_version\": 1,",
      "  \"sha256\": \"e0ce1a7f3f76d7bfda0ffdae6e0226aa63b3009c4c4a770c321876aecad0a6c1\",",
      "  \"signed_input\": \x7b",
      "    \"artifact\": \"macos-auth-0.1.2-darwin-arm64-signed.pkg\",",
      "    \"metadata_sha256\": \"44136fa355b3678a1146ad16f7e8649e94fb4fc21fe77e8310c060f61caaff8a\",",
      "    \"sha256\": \"4a3cdfae6f291c8f544daea5b72905cf9e74c1ed427d831ad0d7ca00c73c794d\"",
      "  \x7d,",
      "  \"source\": \x7b",
      "    \"snapshot_sha256\": \"16a0eeb0791b6c92451fd284dd9f599e0a7dbe7f6ebea6e2d2d06c7f74aec112\",",
      "    \"source_archive_sha256\": \"e3b0c44298fc1c149afbf4c8996fb92427ae41e4649b934ca495991b7852b855\",",
      "    \"source_clean\": true,",
      "    \"source_commit\": \"c0c0c0c0c0c0c0c0c0c0c0c0c0c0c0c0c0c0c0c0\",",
      "    \"source_tree\": \"3e3e3e3e3e3e3e3e3e3e3e3e3e3e3e3e3e3e3e3e\"",
      "  \x7d,",
      "  \"state\": \"notarized\",",
      "  \"version\": \"0.1.2\"",
      "\x7d"]

/-- The metadata of the package. -/
def record : Json :=
  .object
    [("arch", .string "arm64"),
      ("artifact", .string packageName),
      ("distro", .string "darwin"),
      ("notarized_at_utc", .string "2026-01-02T03:04:05Z"),
      ("schema_version", .number 1),
      ("sha256", .string packageDigest),
      ("signed_input", .object
        [("artifact", .string "macos-auth-0.1.2-darwin-arm64-signed.pkg"),
          ("metadata_sha256",
            .string "44136fa355b3678a1146ad16f7e8649e94fb4fc21fe77e8310c060f61caaff8a"),
          ("sha256",
            .string "4a3cdfae6f291c8f544daea5b72905cf9e74c1ed427d831ad0d7ca00c73c794d")]),
      ("source", .object
        (("snapshot_sha256",
          .string "16a0eeb0791b6c92451fd284dd9f599e0a7dbe7f6ebea6e2d2d06c7f74aec112") ::
            source.items)),
      ("state", .string "notarized"),
      ("version", .string "0.1.2")]

def metadataDigest : String := "6231b8ef49329446ad43994c52fde75558f0b7c91488d4929def3e8cd3984f5f"

/-- The index as JSON text. -/
def indexText : String :=
  unlines
    ["\x7b",
      "  \"artifacts\": [",
      "    \x7b",
      "      \"artifact\": \"macos-auth-0.1.2-darwin-arm64.pkg\",",
      "      \"metadata_sha256\": \"6231b8ef49329446ad43994c52fde75558f0b7c91488d4929def3e8cd3984f5f\"",
      "    \x7d",
      "  ],",
      "  \"collected_at_utc\": \"2026-01-03T00:00:00Z\",",
      "  \"collector\": \x7b",
      "    \"dirty\": false,",
      "    \"revision\": \"c0c0c0c0c0c0c0c0c0c0c0c0c0c0c0c0c0c0c0c0\"",
      "  \x7d,",
      "  \"kind\": \"collection\",",
      "  \"schema_version\": 1,",
      "  \"source\": \x7b",
      "    \"source_archive_sha256\": \"e3b0c44298fc1c149afbf4c8996fb92427ae41e4649b934ca495991b7852b855\",",
      "    \"source_clean\": true,",
      "    \"source_commit\": \"c0c0c0c0c0c0c0c0c0c0c0c0c0c0c0c0c0c0c0c0\",",
      "    \"source_tree\": \"3e3e3e3e3e3e3e3e3e3e3e3e3e3e3e3e3e3e3e3e\"",
      "  \x7d,",
      "  \"version\": \"0.1.2\""] ++
    "\x7d"

/-- The index of a release with the package alone. -/
def index : Json :=
  .object
    [("artifacts", .array
        [.object [("artifact", .string packageName), ("metadata_sha256", .string metadataDigest)]]),
      ("collected_at_utc", .string "2026-01-03T00:00:00Z"),
      ("collector", .object [("dirty", .bool false), ("revision", .string source.sourceCommit)]),
      ("kind", .string "collection"),
      ("schema_version", .number 1),
      ("source", source.json),
      ("version", .string "0.1.2")]

/-- The checksum file of the package. -/
def lineText : String := packageDigest ++ "  " ++ packageName ++ "\n"

/-- The checksum file of the package, as another builder has written it. -/
def mirrorText : String := packageDigest ++ "  " ++ packageName ++ "\r\n"

/-- The bytes of a text in UTF-8. -/
@[irreducible] def utf8 (text : String) : Bytes := text.toByteArray.data.toList

def decode (content : Bytes) : Option String := String.fromUTF8? ⟨content.toArray⟩

theorem decode_utf8 (text : String) : decode (utf8 text) = some text := by
  unfold utf8
  exact dif_pos text.isValidUTF8

/-- The digests of the sample files, which differ in their lengths. -/
def sha256 (content : Bytes) : String :=
  match content.length with
  | 0 => source.sourceArchiveSha256
  | 3 => packageDigest
  | 100 => "57bce3405a6f90697ccc463fbeb045193920c4407f1c171501071688df0cc752"
  | 101 => "9da658b71984bfe2436230f029bece444b4d04efabb8109833f3dac729ef5c7f"
  | 669 => "786eacf9fd3610d9f5ded32532a1e8c05530e76035e46c2c9a04f5a9f0c726a2"
  | _ => metadataDigest

/-- A carriage return is a byte of its own. -/
theorem carriageReturn_notMem {text : String} (plain : 13 ∉ utf8 text) : '\r' ∉ text.toList := by
  intro member
  rw [utf8, ← String.utf8Encode_toList, List.utf8Encode, List.data_toByteArray] at plain
  exact plain (List.mem_flatMap.mpr ⟨'\r', member, by decide⟩)

/-- `json.loads` for the sample files and for what is said of a draft. -/
def loads (text : String) : Option Json :=
  if text = metadataText then some record
  else if text = indexText ++ "\n" then some index
  else if text = "\x7b\"isDraft\":true\x7d\n" then some (.object [("isDraft", .bool true)])
  else none

theorem loads_metadataText : loads metadataText = some record := by
  rw [loads, if_pos rfl]

theorem loads_indexText : loads (indexText ++ "\n") = some index := by
  have apart : indexText ++ "\n" ≠ metadataText := by
    intro same
    have sizes := congrArg String.utf8ByteSize same
    revert sizes
    decide +kernel
  rw [loads, if_neg apart, if_pos rfl]

theorem length_metadataText : (utf8 metadataText).length = 907 := by
  decide +kernel

def python : Python where
  decode := decode
  encode text := some (utf8 text)
  loads := loads
  dumps _ := indexText
  sha256 := sha256
  isDecimal := Char.isDigit
  str _ := ""
  decode_encode text _ encoded := Option.some.inj encoded ▸ decode_utf8 text
  encode_dumps _ := ⟨_, rfl⟩
  dumps_plain _ := carriageReturn_notMem (by decide +kernel)

/-- The directory of the builder. -/
def builder : Directory :=
  AList.insert packageName (.file package)
    (AList.insert (metadataName packageName) (.file (utf8 metadataText))
      (AList.insert (checksumName packageName) (.file (utf8 lineText)) ∅))

/-- The directory of another builder with the same package. -/
def mirror : Directory :=
  AList.insert (checksumName packageName) (.file (utf8 mirrorText)) builder

/-- The release with the package alone. -/
def release : Directory :=
  AList.insert "SHA256SUMS-darwin-arm64" (.file (utf8 lineText))
    (AList.insert "BUILD-METADATA.txt" (.file (utf8 (indexText ++ "\n")))
      (AList.insert "BUILD-METADATA-darwin-arm64.txt" (.file (utf8 (indexText ++ "\n"))) builder))

def host : Host where
  git arguments :=
    match arguments with
    | ["rev-parse", "--verify", _] => .ok source.sourceCommit
    | ["rev-parse", "HEAD"] => .ok source.sourceCommit
    | ["rev-parse", _] => .ok source.sourceTree
    | ["show", _] => .ok "[package]\nversion = \"0.1.2\""
    | _ => .ok ""
  archive _ := .ok []
  resolve path := path
  resolve_resolve _ := rfl
  directory path :=
    if path = "/builder" then some builder
    else if path = "/mirror" then some mirror
    else none
  fetch _ _ := .error .subprocessError
  work := "/repo/target/package/collection-work/run"
  workArea := .apart
  now := "2026-01-03T00:00:00Z"
  listing names := names
  listing_perm _ := .refl _

/-- A verification of the macOS package. -/
def scopeOf (revision : String) (platformChecks : Bool) : Scope where
  version := "0.1.2"
  revision := revision
  requireMacos := true
  platformChecks := platformChecks
  macosOnly := true

def scope : Scope :=
  scopeOf "HEAD" false

def platform : Platform where
  system := "linux"
  run _ := .error .osError

def item : Item where
  name := packageName
  bundle := { package, metadata := utf8 metadataText, checksum := utf8 lineText }
  record := record

theorem python_loads (text : String) : python.loads text = loads text := rfl

/-- A sample text is read from its bytes. -/
theorem textOf_utf8 {text : String} (plain : 13 ∉ utf8 text) :
    python.textOf (utf8 text) = some text :=
  python.textOf_of_encode rfl (carriageReturn_notMem plain)

theorem jsonOf_metadataText : python.jsonOf (utf8 metadataText) = some record := by
  rw [Python.jsonOf, textOf_utf8 (by decide +kernel), Option.bind_some, python_loads,
    loads_metadataText]

theorem jsonOf_indexText : python.jsonOf (utf8 (indexText ++ "\n")) = some index := by
  rw [Python.jsonOf, textOf_utf8 (by decide +kernel), Option.bind_some, python_loads,
    loads_indexText]

theorem digest_metadataText : sha256 (utf8 metadataText) = metadataDigest := by
  rw [sha256, length_metadataText]
  rfl

/-- The record of the sample package is accepted. -/
theorem item_isGenuine : item.IsGenuine python source "0.1.2" where
  parsed := jsonOf_metadataText
  identity := by rfl
  digest := by rfl
  line := textOf_utf8 (by decide +kernel)
  origin := by rfl

theorem entry_item :
    item.entry python = .object [("artifact", .string packageName),
      ("metadata_sha256", .string metadataDigest)] := by
  rw [Item.entry]
  change Json.object [("artifact", .string packageName),
    ("metadata_sha256", .string (sha256 (utf8 metadataText)))] = _
  rw [digest_metadataText]

/-- The files of the sample release. -/
def files : List Bytes :=
  [package, utf8 lineText, utf8 mirrorText, utf8 metadataText, utf8 (indexText ++ "\n")]

theorem sha256_injOn {contents : Set Bytes} (areFiles : ∀ content ∈ contents, content ∈ files) :
    contents.InjOn python.sha256 := by
  have lengths : files.map List.length = [3, 100, 101, 907, 669] := by
    decide +kernel
  have digests : (files.map sha256).Nodup := by
    simp only [files, List.map_cons, List.map_nil, List.cons.injEq] at lengths ⊢
    simp only [sha256, lengths]
    decide
  intro content member other otherMember same
  exact List.inj_on_of_nodup_map digests (areFiles content member) (areFiles other otherMember) same

/-- The sample package with its lists is a release, whatever else is in the directory, if it
passes the checks of the machine. -/
theorem verify_eq_ok_of_release
    {directory : Directory}
    {revision : String}
    {platformChecks : Bool}
    {platform : Platform}
    (names : packageFiles directory = [packageName])
    (kept : ∀ name node, release.lookup name = some node -> directory.lookup name = some node)
    (passes : platformChecks = true ->
      platform.system = "darwin" ∧ ∀ command, platform.run command = .ok ())
    (location : String) :
    verify python host (scopeOf revision platformChecks) platform directory location =
      .ok () := by
  have allIn : AllIn python source "0.1.2" directory [item] := by
    intro other member
    rw [List.mem_singleton.mp member]
    exact ⟨⟨kept _ _ rfl, kept _ _ rfl, kept _ _ rfl⟩, item_isGenuine⟩
  have read
      (name : String)
      (isIndex : release.lookup name = some (.file (utf8 (indexText ++ "\n")))) :
      ArtifactPath.readJson python { directory, location, name } = .ok index :=
    ArtifactPath.readJson_eq_ok.mpr
      ⟨_, ArtifactPath.readBytes_of_file (kept _ _ isIndex), jsonOf_indexText⟩
  have macosNamed : macosName python "0.1.2" = .ok packageName := rfl
  refine verify_eq_ok.mpr ⟨source, [packageName], packageName, [item], index, ?_⟩
  exact
    { machine := by
        cases platformChecks with
        | true => simp [scopeOf, (passes rfl).1]
        | false => rfl
      source := rfl
      requiredNames := by
        simp [requiredNames, scopeOf, macosNamed, bind, Except.bind]
      macosName := macosNamed
      complete := by simp [names]
      nothingElse := by simp [names]
      names := names.symm
      allIn := allIn
      read := read _ rfl
      matching := by
        rw [List.map_singleton, entry_item]
        rfl
      linuxList := rfl
      macosList := by
        have readList : ArtifactPath.readText python
            { directory, location, name := "SHA256SUMS-darwin-arm64" } = .ok lineText :=
          ArtifactPath.readText_eq_ok.mpr
            ⟨_, ArtifactPath.readBytes_of_file (kept _ _ rfl), textOf_utf8 (by decide +kernel)⟩
        rw [checkList, if_neg (by decide), bind_eq_ok]
        exact ⟨lineText, readList, rfl⟩
      macosPackage := fun _ => by
        rw [checkMacos, read _ rfl]
        cases platformChecks with
        | true =>
            obtain ⟨system, runs⟩ := passes rfl
            simp [Json.equals_self, refuse, bind, Except.bind, system, appleCommands, runs,
              pure, Except.pure]
        | false => rfl }

/-- There are sample files only. -/
def HasFiles (directory : Directory) : Prop :=
  ∀ content ∈ directory.contents, content ∈ files

theorem HasFiles.insert
    {directory : Directory}
    (hasFiles : HasFiles directory)
    (name : String)
    {content : Bytes}
    (isFile : content ∈ files) :
    HasFiles (AList.insert name (.file content) directory) := by
  rintro other ⟨otherName, found⟩
  by_cases same : otherName = name
  · rw [same, AList.lookup_insert, Option.some.injEq, Node.file.injEq] at found
    exact found ▸ isFile
  · rw [AList.lookup_insert_ne same] at found
    exact hasFiles other ⟨otherName, found⟩

theorem builder_hasFiles : HasFiles builder := by
  have empty : HasFiles ∅ := by
    rintro content ⟨name, found⟩
    cases found
  exact ((empty.insert _ (by simp [files])).insert _ (by simp [files])).insert _ (by simp [files])

theorem mirror_hasFiles : HasFiles mirror :=
  builder_hasFiles.insert _ (by simp [files])

theorem release_hasFiles : HasFiles release :=
  ((builder_hasFiles.insert _ (by simp [files])).insert _ (by simp [files])).insert _
    (by simp [files])

end SampleRelease

open SampleRelease in
theorem build_metadata_pins_release_sample :
    packageFiles release = packageFiles (release.insert "NOTES" (.file package)) := by
  have areFiles : ∀ content ∈ release.contents ∪
      Directory.contents (release.insert "NOTES" (.file package)), content ∈ files := by
    rintro content (member | member)
    · exact release_hasFiles content member
    · exact release_hasFiles.insert "NOTES" (by simp [files]) content member
  have kept : ∀ name node, release.lookup name = some node ->
      (release.insert "NOTES" (.file package)).lookup name = some node := by
    intro name node found
    rw [AList.lookup_insert_ne, found]
    rintro rfl
    cases found
  have unchecked (isChecked : false = true) :
      platform.system = "darwin" ∧ ∀ command, platform.run command = .ok () :=
    absurd isChecked (by decide)
  have first : verify python host scope platform release "/out" = .ok () :=
    verify_eq_ok_of_release rfl (fun _ _ found => found) unchecked "/out"
  have second : verify python host scope platform
      (release.insert "NOTES" (.file package)) "/copy" = .ok () :=
    verify_eq_ok_of_release rfl kept unchecked "/copy"
  exact (build_metadata_pins_release (sha256_injOn areFiles) rfl first second).1

end Release
end MacosAuth
