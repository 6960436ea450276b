import MacosAuth.Release.SnapshotDigest
import MacosAuth.Release.Verification
import Mathlib.Data.List.TakeWhile

/-!
# Recording a build

`snapshot` describes the source that a builder takes, in the file `source.json`. Once the
package is built, `record_build` joins the description with the name and the digest of the
package and writes the two sidecars of the package.

What was recorded is read back, so that the functions for a release accept a package exactly
when it was built for Linux from a clean snapshot of the expected commit.
-/

namespace MacosAuth
namespace Release

open Codec (Bytes)
open Protocol (bind_eq_ok)

/-! ## Dictionaries -/

/-- The items of a dictionary. -/
def Json.items : Json -> List (String × Json)
  | .object fields => fields
  | _ => []

/-- `fields[key] = value`. -/
def setField (key : String) (value : Json) : List (String × Json) -> List (String × Json)
  | [] => [(key, value)]
  | (other, old) :: rest =>
      if key = other then (key, value) :: rest
      else if key < other then (key, value) :: (other, old) :: rest
      else (other, old) :: setField key value rest

/-- `{**fields, **others}`. -/
def setFields (others fields : List (String × Json)) : List (String × Json) :=
  others.foldl (fun current item => setField item.1 item.2 current) fields

theorem lookup_item
    (key other : String)
    (value : Json)
    (rest : List (String × Json)) :
    ((key, value) :: rest).lookup other =
      if other = key then some value else rest.lookup other := by
  by_cases same : other = key
  · simp [same]
  · simp [List.lookup_cons, same, beq_eq_false_iff_ne.mpr same]

theorem lookup_setField
    (key other : String)
    (value : Json)
    (fields : List (String × Json)) :
    (setField key value fields).lookup other =
      if other = key then some value else fields.lookup other := by
  induction fields with
  | nil => rw [setField, lookup_item]
  | cons item rest inductionHypothesis =>
      obtain ⟨first, old⟩ := item
      rw [setField]
      by_cases isFirst : key = first
      · subst isFirst
        rw [if_pos rfl, lookup_item, lookup_item]
        split <;> rfl
      · rw [if_neg isFirst]
        split
        · rw [lookup_item]
        · rw [lookup_item, lookup_item, inductionHypothesis]
          by_cases same : other = key
          · rw [if_pos same, if_pos same, if_neg (same ▸ isFirst)]
          · rw [if_neg same, if_neg same]

/-- The item that was set last counts. -/
theorem lookup_setFields
    (others fields : List (String × Json))
    (key : String) :
    (setFields others fields).lookup key = (others.reverse ++ fields).lookup key := by
  induction others generalizing fields with
  | nil => rfl
  | cons item rest inductionHypothesis =>
      obtain ⟨first, value⟩ := item
      have step : setFields ((first, value) :: rest) fields =
          setFields rest (setField first value fields) := rfl
      rw [step, inductionHypothesis, List.reverse_cons, List.append_assoc, List.lookup_append,
        List.lookup_append, lookup_setField, List.singleton_append, lookup_item]

/-! ## Text files -/

/-- `write_text`, once the text is encoded. A link is followed. -/
def writeFile (directory : Directory) (name : String) (content : Bytes) :
    Except Exception Directory :=
  match directory.lookup name with
  | none | some (.file _) => .ok (directory.insert name (.file content))
  | some (.symlink .other) | some (.directory _) => .error .osError
  | some (.symlink _) => .ok (directory.insert name (.symlink (.file content)))
  | some (.special writable) => if writable then .ok directory else .error .osError

/-- `write_text`: how it ends and the directory after it. The file is emptied before the text
is encoded. -/
def writeTextFile (python : Python) (directory : Directory) (name text : String) :
    Except Exception Unit × Directory :=
  match writeFile directory name ((python.encode text).getD []) with
  | .ok written => (if (python.encode text).isSome then .ok () else .error .unicodeError, written)
  | .error error => (.error error, directory)

/-- There is nothing or a regular file. -/
def IsPlain : Option Node -> Prop
  | none | some (.file _) => True
  | _ => False

/-- Where there is no link or device, a text that can be encoded is written. -/
theorem writeTextFile_of_plain
    {python : Python}
    {directory : Directory}
    {name text : String}
    {content : Bytes}
    (plain : IsPlain (directory.lookup name))
    (encoded : python.encode text = some content) :
    writeTextFile python directory name text =
      (.ok (), directory.insert name (.file content)) := by
  have written : writeFile directory name content =
      .ok (directory.insert name (.file content)) := by
    unfold writeFile
    rcases found : directory.lookup name with _ | (_ | _ | _ | _)
    · rfl
    · rfl
    · simp [found, IsPlain] at plain
    · simp [found, IsPlain] at plain
    · simp [found, IsPlain] at plain
  simp [writeTextFile, encoded, written]

/-- A text that was written is in the file if there was no link or device. -/
theorem writeTextFile_eq_ok
    {python : Python}
    {directory after : Directory}
    {name text : String}
    (writes : writeTextFile python directory name text = (.ok (), after)) :
    ∃ content, python.encode text = some content ∧
      (∀ other, other ≠ name -> after.lookup other = directory.lookup other) ∧
      ∀ found, after.lookup name = some (.file found) ↔
        IsPlain (directory.lookup name) ∧ found = content := by
  unfold writeTextFile at writes
  cases encoded : python.encode text with
  | none =>
      simp only [encoded] at writes
      split at writes <;> simp at writes
  | some content =>
      refine ⟨content, rfl, ?_⟩
      simp only [encoded, Option.getD_some, Option.isSome_some, if_true] at writes
      cases written : writeFile directory name content with
      | error error => simp [written] at writes
      | ok other =>
          simp only [written, Prod.mk.injEq, true_and] at writes
          subst writes
          have inserted (node : Node) (other : String) (apart : other ≠ name) :
              (directory.insert name node).lookup other = directory.lookup other :=
            AList.lookup_insert_ne apart
          unfold writeFile at written
          rcases before : directory.lookup name with _ | (old | referent | entries | writable)
          · simp only [before, Except.ok.injEq] at written
            subst written
            refine ⟨inserted _, fun found => ?_⟩
            simp [IsPlain, eq_comm]
          · simp only [before, Except.ok.injEq] at written
            subst written
            refine ⟨inserted _, fun found => ?_⟩
            simp [IsPlain, eq_comm]
          · cases referent with
            | other => simp [before] at written
            | file old =>
                simp only [before, Except.ok.injEq] at written
                subst written
                exact ⟨inserted _, fun found => by simp [IsPlain]⟩
            | missing =>
                simp only [before, Except.ok.injEq] at written
                subst written
                exact ⟨inserted _, fun found => by simp [IsPlain]⟩
          · simp [before] at written
          · simp only [before] at written
            split at written
            · cases written
              exact ⟨fun _ _ => rfl, fun found => by simp [before, IsPlain]⟩
            · cases written

/-! ## The snapshot -/

/-- What `snapshot` finds where the archive was unpacked, after the overlay if there is one. -/
structure Checkout where
  tree : SnapshotTree
  /-- `(source / "crates/helper/Cargo.toml").read_text()` -/
  manifest : Except Exception String

/-- The machine of a builder. -/
structure Builder where
  /-- The repository of the builder, and its clock. -/
  host : Host
  /-- The archive, unpacked, and for a development snapshot with the files of the working
  tree laid over it. -/
  checkout : Bytes -> Bool -> Except Exception Checkout
  /-- `platform.system()` -/
  system : String
  /-- `platform.machine()` -/
  machine : String

/-- The description that a snapshot gives of its source. -/
def sourceItems (description : Description) (development : Bool) (digest : String) :
    List (String × Json) :=
  let described := setField "snapshot_sha256" (.string digest) description.items
  if development then
    setFields [("source_clean", .bool false), ("source_archive_sha256", .null)] described
  else
    described

/-- What `snapshot` writes to `source.json`. -/
def snapshotData
    (python : Python)
    (builder : Builder)
    (version : String)
    (development : Bool) :
    Except Exception Json := do
  let status ← builder.host.git ["status", "--porcelain", "--untracked-files=all"]
  refuse (status != "" && !development)
    (.valueError "release builds require a clean committed source tree (including untracked files)")
  let (description, archive) ←
    sourceDescription python builder.host version "HEAD" (!development)
  let checkout ← builder.checkout archive development
  if development then
    let manifest ← checkout.manifest
    refuse (searchVersion true manifest.toList != some version)
      (.valueError "development version does not match the snapshot helper manifest")
  let digest := python.sha256 (digestInput checkout.tree)
  .ok (.object
    [("schema_version", schema),
      ("source", .object (sourceItems description development digest)),
      ("version", .string version)])

/-! ## The record -/

/-- `write_record`: how it ends and the directory of the artifact after it. -/
def writeRecord (python : Python) (artifact : ArtifactPath) (fields : List (String × Json)) :
    Except Exception Unit × Directory :=
  match artifact.digest python with
  | .error error => (.error error, artifact.directory)
  | .ok digest =>
      let record :=
        setFields [("artifact", .string artifact.name), ("sha256", .string digest)] fields
      match writeTextFile python artifact.directory (metadataName artifact.name)
          (python.dumps (.object record) ++ "\n") with
      | (.error error, written) => (.error error, written)
      | (.ok (), written) =>
          writeTextFile python written (checksumName artifact.name)
            (checksumLine digest artifact.name)

/-- The arguments of `record_build` that say what was built. -/
structure Build where
  distro : String
  arch : String
  state : String
  installPrefix : Option String

/-- The items that `record_build` adds to those of the snapshot. -/
def buildItems (builder : Builder) (build : Build) (name : String) : List (String × Json) :=
  [("artifact", .string name), ("distro", .string build.distro), ("arch", .string build.arch),
    ("state", .string build.state), ("built_at_utc", .string builder.host.now),
    ("builder", .object [("arch", .string builder.machine), ("os", .string builder.system)])] ++
  (build.installPrefix.map fun location => ("prefix", Json.string location)).toList

/-- What `record_build` asks before it writes: the snapshot, if the artifact has its name. -/
def checkBuild
    (python : Python)
    (snapshotFile artifact : ArtifactPath)
    (build : Build) :
    Except Exception Json := do
  let data ← snapshotFile.readJson python
  let version ← data.item "version"
  let name ← artifactName python version (.string build.distro) (.string build.arch)
    (.string build.state)
  refuse (artifact.name != name)
    (.valueError "builder output does not have the canonical artifact name")
  .ok data

/-- `record_build`: how it ends and the directory of the artifact after it. -/
def recordBuild
    (python : Python)
    (builder : Builder)
    (snapshotFile artifact : ArtifactPath)
    (build : Build) :
    Except Exception Unit × Directory :=
  match checkBuild python snapshotFile artifact build with
  | .error error => (.error error, artifact.directory)
  | .ok data =>
      writeRecord python artifact (setFields (buildItems builder build artifact.name) data.items)

/-! ## What was recorded is read back -/

/-- The JSON text of a value is read as the value. -/
def Python.ReadsBack (python : Python) (value : Json) : Prop :=
  python.loads (python.dumps value ++ "\n") = some value

/-- The artifact is a regular file, and no link or device is in the place of a sidecar. -/
structure ArtifactPath.IsFresh (artifact : ArtifactPath) : Prop where
  package : ∃ content, artifact.node = some (.file content)
  metadata : IsPlain artifact.metadataPath.node
  checksum : IsPlain artifact.checksumPath.node

/-- The items of a record once it is written. -/
def recordItems (python : Python) (artifact : ArtifactPath) (fields : List (String × Json)) :
    List (String × Json) :=
  setFields
    [("artifact", .string artifact.name),
      ("sha256", .string (((artifact.digest python).toOption).getD ""))]
    fields

section Record

variable {python : Python} {artifact : ArtifactPath} {after : Directory}
  {fields : List (String × Json)}

/-- The three files have different names. -/
theorem names_apart (name : String) :
    name ≠ metadataName name ∧ name ≠ checksumName name ∧
      metadataName name ≠ checksumName name := by
  refine ⟨fun same => ?_, fun same => ?_, fun same => ?_⟩
  · have sizes := congrArg String.length same
    simp [metadataName, String.length_append] at sizes
  · have sizes := congrArg String.length same
    simp [checksumName, String.length_append] at sizes
  · have last := congrArg lastCharacter same
    simp at last

/-- What `write_record` leaves. -/
theorem holds_of_writeRecord
    (writes : writeRecord python artifact fields = (.ok (), after)) :
    ∃ package metadata line, artifact.readBytes = .ok package ∧
      python.encode (python.dumps (.object (recordItems python artifact fields)) ++ "\n") =
        some metadata ∧
      python.encode (checksumLine (python.sha256 package) artifact.name) = some line ∧
      ∀ bundle, ArtifactPath.Holds { artifact with directory := after } bundle ↔
        artifact.IsFresh ∧ bundle = ⟨package, metadata, line⟩ := by
  unfold writeRecord at writes
  cases read : artifact.readBytes with
  | error error => simp [ArtifactPath.digest, read, bind, Except.bind] at writes
  | ok package =>
      have digest : artifact.digest python = .ok (python.sha256 package) := by
        simp [ArtifactPath.digest, read, bind, Except.bind]
      have items : recordItems python artifact fields =
          setFields [("artifact", .string artifact.name),
            ("sha256", .string (python.sha256 package))] fields := by
        simp [recordItems, digest, Except.toOption]
      simp only [digest, ← items] at writes
      split at writes
      · simp at writes
      · rename_i written writesMetadata
        obtain ⟨metadata, metadataEncoded, others, atMetadata⟩ :=
          writeTextFile_eq_ok writesMetadata
        obtain ⟨line, lineEncoded, others', atChecksum⟩ := writeTextFile_eq_ok writes
        refine ⟨package, metadata, line, rfl, metadataEncoded, lineEncoded, fun bundle => ?_⟩
        obtain ⟨notPackage, notPackage', notMetadata⟩ := names_apart artifact.name
        have isPackage : after.lookup artifact.name = artifact.node := by
          rw [others' _ notPackage', others _ notPackage]
          rfl
        have isMetadata : after.lookup (metadataName artifact.name) =
              some (.file bundle.metadata) ↔
            IsPlain artifact.metadataPath.node ∧ bundle.metadata = metadata := by
          rw [others' _ notMetadata, atMetadata]
          rfl
        have isChecksum : after.lookup (checksumName artifact.name) =
              some (.file bundle.checksum) ↔
            IsPlain artifact.checksumPath.node ∧ bundle.checksum = line := by
          rw [atChecksum, others _ notMetadata.symm]
          rfl
        have found : ArtifactPath.Holds { artifact with directory := after } bundle ↔
            artifact.node = some (.file bundle.package) ∧
              (IsPlain artifact.metadataPath.node ∧ bundle.metadata = metadata) ∧
              IsPlain artifact.checksumPath.node ∧ bundle.checksum = line := by
          rw [← isMetadata, ← isChecksum, ← isPackage]
          rfl
        rw [found]
        constructor
        · rintro ⟨isFile, ⟨plainMetadata, rfl⟩, plainChecksum, rfl⟩
          rw [ArtifactPath.readBytes_of_file isFile, Except.ok.injEq] at read
          rw [← read]
          exact ⟨⟨⟨_, isFile⟩, plainMetadata, plainChecksum⟩, rfl⟩
        · rintro ⟨⟨⟨content, isFile⟩, plainMetadata, plainChecksum⟩, rfl⟩
          rw [ArtifactPath.readBytes_of_file isFile, Except.ok.injEq] at read
          rw [← read]
          exact ⟨isFile, ⟨plainMetadata, rfl⟩, plainChecksum, rfl⟩

/-- A fresh artifact can be recorded. -/
theorem exists_writeRecord_of_fresh
    {line : Bytes}
    {package : Bytes}
    (fresh : artifact.IsFresh)
    (read : artifact.readBytes = .ok package)
    (encoded : python.encode (checksumLine (python.sha256 package) artifact.name) = some line) :
    ∃ after, writeRecord python artifact fields = (.ok (), after) := by
  have digest : artifact.digest python = .ok (python.sha256 package) := by
    simp [ArtifactPath.digest, read, bind, Except.bind]
  obtain ⟨metadata, metadataEncoded⟩ := python.encode_dumps (.object (setFields
    [("artifact", .string artifact.name), ("sha256", .string (python.sha256 package))] fields))
  have plainChecksum : IsPlain ((artifact.directory.insert (metadataName artifact.name)
      (.file metadata)).lookup (checksumName artifact.name)) := by
    rw [AList.lookup_insert_ne (names_apart artifact.name).2.2.symm]
    exact fresh.checksum
  have plainMetadata : IsPlain (artifact.directory.lookup (metadataName artifact.name)) :=
    fresh.metadata
  simp only [writeRecord, digest, writeTextFile_of_plain plainMetadata metadataEncoded]
  exact ⟨_, writeTextFile_of_plain plainChecksum encoded⟩

/-- What was written is accepted for what the record says. -/
theorem readRecord_of_writeRecord
    {expected : Option Description}
    {version : Option String}
    {release : Bool}
    {record : Json}
    (writes : writeRecord python artifact fields = (.ok (), after))
    (readsBack : python.ReadsBack (.object (recordItems python artifact fields)))
    (plain : ∀ content, '\r' ∉ (checksumLine (python.sha256 content) artifact.name).toList) :
    readRecord python { artifact with directory := after } expected version release =
        .ok record ↔
      artifact.IsFresh ∧ record = .object (recordItems python artifact fields) ∧
        checkIdentity python artifact.name version record = .ok () ∧
        checkOrigin python artifact.name expected release record = .ok () := by
  obtain ⟨package, metadata, line, read, metadataEncoded, lineEncoded, holds⟩ :=
    holds_of_writeRecord writes
  have parsed : python.jsonOf metadata = some (.object (recordItems python artifact fields)) :=
    python.jsonOf_of_encode metadataEncoded readsBack
  have digest : Json.item (.object (recordItems python artifact fields)) "sha256" =
      .ok (.string (python.sha256 package)) := by
    have digested : artifact.digest python = .ok (python.sha256 package) := by
      simp [ArtifactPath.digest, read, bind, Except.bind]
    simp [Json.item, recordItems, lookup_setFields, digested, Except.toOption]
  rw [readRecord_eq_ok]
  constructor
  · rintro ⟨bundle, held, genuine⟩
    obtain ⟨fresh, rfl⟩ := (holds bundle).mp held
    have same : record = .object (recordItems python artifact fields) :=
      Option.some.inj (genuine.parsed.symm.trans parsed)
    exact ⟨fresh, same, genuine.identity, genuine.origin⟩
  · rintro ⟨fresh, rfl, identity, origin⟩
    exact ⟨_, (holds _).mpr ⟨fresh, rfl⟩,
      ⟨parsed, identity, digest, python.textOf_of_encode lineEncoded (plain package), origin⟩⟩

end Record

/-! ## Names and digests are plain -/

section Plain

/-- What may stand in a version. -/
def isVersionCharacter (isDecimal : Char -> Bool) (character : Char) : Bool :=
  isDecimal character || character.isAlphanum || ['.', '-', '+'].contains character

theorem afterDigits_eq_some
    {isDecimal : Char -> Bool}
    {text rest : List Char}
    (taken : afterDigits isDecimal text = some rest) :
    ∃ digits, text = digits ++ rest ∧ ∀ character ∈ digits, isDecimal character = true := by
  rw [afterDigits] at taken
  split at taken
  · cases taken
  · cases taken
    exact ⟨_, (List.takeWhile_append_dropWhile).symm, fun _ => List.mem_takeWhile_imp⟩

theorem afterDot_eq_some
    {text rest : List Char}
    (taken : afterDot text = some rest) :
    text = '.' :: rest := by
  unfold afterDot at taken
  split at taken
  · rw [Option.some.inj taken]
  · cases taken

/-- Only a few characters stand in a version. -/
theorem isVersionCharacter_of_mem
    {isDecimal : Char -> Bool}
    {version : String}
    (valid : isPackageVersion isDecimal version = true) :
    ∀ character ∈ version.toList, isVersionCharacter isDecimal character = true := by
  unfold isPackageVersion at valid
  extract_lets afterPatch at valid
  have digit {character : Char} (isDigit : isDecimal character = true) :
      isVersionCharacter isDecimal character = true := by
    simp [isVersionCharacter, isDigit]
  have whole {rest : List Char}
      (taken : afterPatch = some rest)
      (valid : ∀ character ∈ rest, isVersionCharacter isDecimal character = true) :
      ∀ character ∈ version.toList, isVersionCharacter isDecimal character = true := by
    simp only [afterPatch, Option.bind_eq_bind, Option.bind_eq_some_iff] at taken
    obtain ⟨afterMajor, ⟨front, major, dot⟩, afterMinor, ⟨middle, minor, dot'⟩, patch⟩ := taken
    obtain ⟨majorDigits, split, areMajor⟩ := afterDigits_eq_some major
    obtain ⟨minorDigits, split', areMinor⟩ := afterDigits_eq_some minor
    obtain ⟨patchDigits, split'', arePatch⟩ := afterDigits_eq_some patch
    rw [split, afterDot_eq_some dot, split', afterDot_eq_some dot', split'']
    have isDot : isVersionCharacter isDecimal '.' = true := by simp [isVersionCharacter]
    intro character member
    simp only [List.mem_append, List.mem_cons] at member
    rcases member with inMajor | rfl | inMinor | rfl | inPatch | inRest
    · exact digit (areMajor character inMajor)
    · exact isDot
    · exact digit (areMinor character inMinor)
    · exact isDot
    · exact digit (arePatch character inPatch)
    · exact valid character inRest
  clear_value afterPatch
  cases taken : afterPatch with
  | none => simp [taken] at valid
  | some rest =>
      refine whole taken ?_
      cases rest with
      | nil => simp
      | cons sign label =>
          simp only [taken, Bool.and_eq_true, List.all_eq_true, Bool.or_eq_true, beq_iff_eq]
            at valid
          intro character member
          rcases List.mem_cons.mp member with rfl | inLabel
          · rcases valid.1.1 with rfl | rfl <;> simp [isVersionCharacter]
          · rcases valid.2 character inLabel with isAlphanum | rfl
            · simp [isVersionCharacter, isAlphanum]
            · simp [isVersionCharacter]

variable {python : Python}

/-- There is no carriage return in the name of an artifact. -/
theorem carriageReturn_notMem_artifactName
    {version distro arch state : Json}
    {name : String}
    (noReturn : python.isDecimal '\r' = false)
    (named : artifactName python version distro arch state = .ok name) :
    '\r' ∉ name.toList := by
  obtain ⟨text, rfl, target⟩ := artifactName_cases named
  have valid : isPackageVersion python.isDecimal text = true := by
    unfold artifactName at named
    simp only at named
    split at named
    · assumption
    · cases named
  have plainVersion : '\r' ∉ text.toList := by
    intro member
    have bad := isVersionCharacter_of_mem valid _ member
    simp [isVersionCharacter, noReturn] at bad
  rcases target with ⟨distro, arch, isTarget, _, _, rfl⟩ | ⟨_, _, rfl⟩
  · have plainTarget : '\r' ∉ distro.toList ∧ '\r' ∉ arch.toList := by
      revert isTarget
      generalize distro = distro, arch = arch
      simp only [linuxTargets, List.mem_cons, Prod.mk.injEq, List.not_mem_nil, or_false]
      rintro (⟨rfl, rfl⟩ | ⟨rfl, rfl⟩ | ⟨rfl, rfl⟩ | ⟨rfl, rfl⟩) <;> decide
    rw [linuxName]
    split <;> simp [plainVersion, plainTarget]
  · rw [darwinName]
    split <;> simp [plainVersion]

/-- The digests are hexadecimal. -/
def Python.HexDigests (python : Python) : Prop :=
  ∀ content, isHexDigest (.string (python.sha256 content)) = .ok true

theorem carriageReturn_notMem_checksumLine
    {name : String}
    (hexDigests : python.HexDigests)
    (plain : '\r' ∉ name.toList)
    (content : Bytes) :
    '\r' ∉ (checksumLine (python.sha256 content) name).toList := by
  have isHex := hexDigests content
  have plainDigest : '\r' ∉ (python.sha256 content).toList := by
    intro member
    simp only [isHexDigest, Except.ok.injEq, Bool.and_eq_true, List.all_eq_true] at isHex
    exact absurd (isHex.2 _ member) (by decide)
  simp [checksumLine, plain, plainDigest]

end Plain

/-! ## Which builds are accepted for a release -/

section Acceptance

variable {python : Python} {builder : Builder} {artifact : ArtifactPath} {build : Build}
  {version : String} {source : Json}

/-- The contents of `source.json`. -/
def snapshotJson (version : String) (source : Json) : Json :=
  .object [("schema_version", schema), ("source", source), ("version", .string version)]

/-- The items that `record_build` writes. -/
def recordedItems
    (python : Python)
    (builder : Builder)
    (artifact : ArtifactPath)
    (build : Build)
    (data : Json) :
    List (String × Json) :=
  recordItems python artifact (setFields (buildItems builder build artifact.name) data.items)

/-- The items that `read_record` looks at. -/
structure IsRecorded
    (name : String)
    (build : Build)
    (version : String)
    (source : Json)
    (items : List (String × Json)) :
    Prop where
  schemaVersion : ((items.lookup "schema_version").getD .null).equals schema = true
  version : items.lookup "version" = some (.string version)
  distro : items.lookup "distro" = some (.string build.distro)
  arch : items.lookup "arch" = some (.string build.arch)
  state : items.lookup "state" = some (.string build.state)
  artifact : items.lookup "artifact" = some (.string name)
  source : items.lookup "source" = some source

theorem lookup_recordedItems (key : String) :
    (recordedItems python builder artifact build (snapshotJson version source)).lookup key =
      ([("sha256", Json.string (((artifact.digest python).toOption).getD "")),
        ("artifact", Json.string artifact.name)] ++
        ((buildItems builder build artifact.name).reverse ++
          (snapshotJson version source).items)).lookup key := by
  simp only [recordedItems, recordItems, lookup_setFields, List.lookup_append]
  rfl

theorem isRecorded_recordedItems :
    IsRecorded artifact.name build version source
      (recordedItems python builder artifact build (snapshotJson version source)) := by
  have equal : Json.equals schema schema = true := Json.equals_self _
  constructor <;>
  · rw [lookup_recordedItems]
    cases place : build.installPrefix <;>
      simp [lookup_item, snapshotJson, Json.items, buildItems, place, equal]

/-- `record_build` names no signed input. -/
theorem noSignedInput_recordedItems :
    (recordedItems python builder artifact build (snapshotJson version source)).lookup
      "signed_input" = none := by
  rw [lookup_recordedItems]
  cases place : build.installPrefix <;>
    simp [lookup_item, snapshotJson, Json.items, buildItems, place]

theorem item_of_lookup
    {items : List (String × Json)}
    {key : String}
    {value : Json}
    (found : items.lookup key = some value) :
    Json.item (.object items) key = .ok value := by
  rw [Json.item, found]

theorem checkIdentity_of_isRecorded
    {name : String}
    {items : List (String × Json)}
    {wanted : Option String}
    (recorded : IsRecorded name build version source items)
    (named : artifactName python (.string version) (.string build.distro) (.string build.arch)
      (.string build.state) = .ok name) :
    checkIdentity python name wanted (.object items) = .ok () ↔
      ∀ other, wanted = some other -> other = version := by
  have schemaVersion : Json.get (.object items) "schema_version" =
      .ok ((items.lookup "schema_version").getD .null) := rfl
  simp only [checkIdentity, schemaVersion, recorded.schemaVersion,
    item_of_lookup recorded.version, item_of_lookup recorded.distro, item_of_lookup recorded.arch,
    item_of_lookup recorded.state, item_of_lookup recorded.artifact, named, bind_eq_ok,
    refuse_eq_ok, Json.equals_self, Except.ok.injEq, exists_and_left, exists_const,
    exists_eq_left', Bool.not_true, bne_self_eq_false, Bool.or_self, true_and]
  cases wanted with
  | none => simp
  | some other =>
      have compared : Json.equals (.string version) (.string other) = true ↔ version = other := by
        rw [Json.equals_string, Json.string.injEq]
      simp only [refuse_eq_ok, Bool.not_eq_eq_eq_not, Bool.not_false, compared,
        Option.some.injEq, forall_eq']
      exact eq_comm

/-- A package that is not for macOS is not notarized. -/
theorem state_of_artifactName
    {distro state : String}
    {arch version : Json}
    {name : String}
    (named : artifactName python version (.string distro) arch (.string state) = .ok name)
    (notDarwin : distro ≠ "darwin") :
    state = "linux" := by
  unfold artifactName at named
  split at named
  · split at named
    · split at named
      · rename_i other otherArch isOther
        obtain rfl := Json.string.inj isOther
        split at named
        · split at named
          · rename_i isLinux
            simpa [Json.text?] using isLinux
          · cases named
        · split at named
          · rename_i darwin
            exact absurd (congrArg Prod.fst darwin.1) notDarwin
          · cases named
      · cases named
    · cases named
  · cases named

theorem anyDiffers_eq_false {fields items : List (String × Json)} :
    anyDiffers (.object fields) items = .ok false ↔
      ∀ item ∈ items, ((fields.lookup item.1).getD .null).equals item.2 = true := by
  induction items with
  | nil => simp [anyDiffers]
  | cons item rest inductionHypothesis =>
      obtain ⟨key, value⟩ := item
      have got : Json.get (.object fields) key = .ok ((fields.lookup key).getD .null) := rfl
      simp only [anyDiffers, got, bind_eq_ok, Except.ok.injEq, exists_eq_left',
        List.forall_mem_cons]
      split
      · rename_i same
        rw [inductionHypothesis, and_iff_right same]
      · rename_i apart
        simp [apart]

/-- The source that a release snapshot describes is the expected one only if the descriptions
are the same. -/
theorem anyDiffers_sourceItems
    {description expected : Description}
    {digest : String} :
    anyDiffers (.object (sourceItems description false digest)) expected.items = .ok false ↔
      expected = description := by
  have trueIsTrue : Json.equals (.bool true) (.bool true) = true := rfl
  rw [anyDiffers_eq_false]
  simp only [Description.items, sourceItems, Bool.false_eq_true, if_false, lookup_setField,
    lookup_item, List.forall_mem_cons, List.not_mem_nil, false_implies, implies_true, and_true,
    String.reduceEq, Option.getD_some, Json.equals_string, Json.string.injEq, if_true, trueIsTrue,
    true_and]
  constructor
  · rintro ⟨archive, commit, tree⟩
    cases expected
    cases description
    simp_all
  · rintro rfl
    exact ⟨rfl, rfl, rfl⟩

/-- Without a signed input no record is accepted as notarized. -/
theorem not_checkSignedInput
    {items : List (String × Json)}
    {name : String}
    (absent : items.lookup "signed_input" = none) :
    checkSignedInput python name (.object items) ≠ .ok () := by
  intro checked
  have empty : Json.getOr (.object items) "signed_input" (.object []) = .ok (.object []) := by
    simp [Json.getOr, absent]
  have noArtifact : Json.get (.object []) "artifact" = .ok .null := rfl
  simp only [checkSignedInput, empty, noArtifact, bind_eq_ok, refuse_eq_ok, Except.ok.injEq,
    exists_eq_left', Bool.not_eq_eq_eq_not, Bool.not_false, Json.equals_string] at checked
  obtain ⟨_, _, _, _, _, impossible, _⟩ := checked
  cases impossible

/-- Where a build for a release comes from. -/
theorem checkOrigin_of_isRecorded
    {name : String}
    {items : List (String × Json)}
    {description expected : Description}
    {development : Bool}
    {digest : String}
    (recorded : IsRecorded name build version
      (.object (sourceItems description development digest)) items)
    (noSignedInput : items.lookup "signed_input" = none)
    (isHex : isHexDigest (.string digest) = .ok true)
    (named : artifactName python (.string version) (.string build.distro) (.string build.arch)
      (.string build.state) = .ok name) :
    checkOrigin python name (some expected) true (.object items) = .ok () ↔
      development = false ∧ expected = description ∧ build.distro ≠ "darwin" := by
  have snapshot : Json.getOr (.object (sourceItems description development digest))
      "snapshot_sha256" (.string "") = .ok (.string digest) := by
    cases development <;>
      simp [Json.getOr, sourceItems, Description.items, lookup_setFields, lookup_setField,
        lookup_item]
  have clean : Json.get (.object (sourceItems description development digest)) "source_clean" =
      .ok (.bool !development) := by
    cases development <;>
      simp [Json.get, Json.getOr, sourceItems, Description.items, lookup_setFields,
        lookup_setField, lookup_item]
  simp only [checkOrigin, item_of_lookup recorded.source, item_of_lookup recorded.distro,
    item_of_lookup recorded.state, snapshot, clean, isHex, bind_eq_ok, refuse_eq_ok, if_true,
    Except.ok.injEq, exists_and_left, exists_const, exists_eq_left']
  cases development with
  | true => simp
  | false =>
      by_cases isDarwin : build.distro = "darwin"
      · have refused : Json.equals (.string build.distro) (.string "darwin") = true :=
          (Json.equals_string _ _).mpr (congrArg Json.string isDarwin)
        rw [and_iff_right rfl, iff_false_right fun accepted => accepted.2 isDarwin]
        rintro ⟨_, value, _, rfl, _, allowed, signed⟩
        rw [refused, Bool.true_and, Bool.true_and, Bool.not_eq_false'] at allowed
        rw [if_pos allowed] at signed
        exact not_checkSignedInput noSignedInput signed
      · have isLinux := state_of_artifactName named isDarwin
        have notDarwin : Json.equals (.string build.distro) (.string "darwin") = false :=
          Bool.eq_false_iff.mpr fun same =>
            isDarwin (Json.string.inj ((Json.equals_string _ _).mp same))
        have notNotarized : Json.equals (.string build.state) (.string "notarized") = false := by
          rw [isLinux]
          rfl
        rw [and_iff_right rfl, and_iff_left isDarwin]
        simp only [notDarwin, notNotarized, Bool.and_false, Bool.false_and, Bool.false_eq_true,
          if_false]
        rw [← @anyDiffers_sourceItems description expected digest]
        constructor
        · rintro ⟨_, value, differs, rfl, _⟩
          exact differs
        · intro differs
          exact ⟨rfl, false, differs, rfl, rfl, trivial, rfl⟩

/-- What a snapshot writes. -/
theorem snapshotData_eq_ok
    {description : Description}
    {archive : Bytes}
    {development : Bool}
    {data : Json}
    (described : sourceDescription python builder.host version "HEAD" (!development) =
      .ok (description, archive))
    (snapshots : snapshotData python builder version development = .ok data) :
    ∃ content, data = snapshotJson version
      (.object (sourceItems description development (python.sha256 content))) := by
  simp only [snapshotData, described, bind_eq_ok, Except.ok.injEq, exists_eq_left'] at snapshots
  obtain ⟨_, _, _, _, checkout, _, finishes⟩ := snapshots
  refine ⟨digestInput checkout.tree, ?_⟩
  cases development with
  | false => exact (Except.ok.inj finishes).symm
  | true =>
      simp only [if_true, bind_eq_ok] at finishes
      obtain ⟨_, _, _, _, finishes⟩ := finishes
      exact (Except.ok.inj finishes).symm

theorem checkBuild_eq_ok
    {snapshotFile : ArtifactPath}
    {data : Json} :
    checkBuild python snapshotFile artifact build = .ok data ↔
      snapshotFile.readJson python = .ok data ∧ ∃ version, data.item "version" = .ok version ∧
        artifactName python version (.string build.distro) (.string build.arch)
          (.string build.state) = .ok artifact.name := by
  simp only [checkBuild, bind_eq_ok, refuse_eq_ok, Except.ok.injEq, exists_and_left, exists_const,
    bne_eq_false_iff_eq]
  constructor
  · rintro ⟨_, read, version, has, name, named, rfl, rfl⟩
    exact ⟨read, version, has, named⟩
  · rintro ⟨read, version, has, named⟩
    exact ⟨data, read, version, has, _, named, rfl, rfl⟩

/-- The package that `record_build` recorded for a snapshot is accepted for a release of a
version and a source exactly when the snapshot was a release snapshot of this version and this
source, the package is for Linux, and no link was in the place of one of the three files. -/
theorem recorded_build_accepted_iff
    {snapshotFile : ArtifactPath}
    {after : Directory}
    {description expected : Description}
    {archive : Bytes}
    {development : Bool}
    {data : Json}
    {wanted : String}
    (hexDigests : python.HexDigests)
    (noReturn : python.isDecimal '\r' = false)
    (described : sourceDescription python builder.host version "HEAD" (!development) =
      .ok (description, archive))
    (snapshots : snapshotData python builder version development = .ok data)
    (given : snapshotFile.readJson python = .ok data)
    (records : recordBuild python builder snapshotFile artifact build = (.ok (), after))
    (readsBack : python.ReadsBack (.object (recordedItems python builder artifact build data))) :
    (∃ record, readRecord python { artifact with directory := after } (some expected)
        (some wanted) true = .ok record) ↔
      development = false ∧ wanted = version ∧ expected = description ∧
        build.distro ≠ "darwin" ∧ artifact.IsFresh := by
  obtain ⟨content, rfl⟩ := snapshotData_eq_ok described snapshots
  have checked : checkBuild python snapshotFile artifact build =
      .ok (snapshotJson version
        (.object (sourceItems description development (python.sha256 content)))) := by
    unfold recordBuild at records
    split at records
    · simp at records
    · rename_i other checks
      rw [checks, ← given, (checkBuild_eq_ok.mp checks).1]
  have writes : writeRecord python artifact (setFields (buildItems builder build artifact.name)
      (snapshotJson version (.object
        (sourceItems description development (python.sha256 content)))).items) =
        (.ok (), after) := by
    simpa only [recordBuild, checked] using records
  obtain ⟨_, other, hasVersion, named⟩ := checkBuild_eq_ok.mp checked
  have isVersion : other = .string version := by
    simpa [snapshotJson, Json.item, lookup_item, eq_comm] using hasVersion
  subst isVersion
  have plain := carriageReturn_notMem_artifactName noReturn named
  have recorded := @isRecorded_recordedItems python builder artifact build version
    (.object (sourceItems description development (python.sha256 content)))
  have fromSnapshot := @checkOrigin_of_isRecorded python build version artifact.name _ description
    expected development _ recorded noSignedInput_recordedItems (hexDigests content) named
  have accepted := fun record =>
    @readRecord_of_writeRecord python artifact after _ (some expected) (some wanted) true record
      writes readsBack (carriageReturn_notMem_checksumLine hexDigests plain)
  constructor
  · rintro ⟨record, accepts⟩
    obtain ⟨fresh, rfl, identity, origin⟩ := (accepted record).mp accepts
    obtain ⟨isRelease, isExpected, notDarwin⟩ := fromSnapshot.mp origin
    exact ⟨isRelease, (checkIdentity_of_isRecorded recorded named).mp identity wanted rfl,
      isExpected, notDarwin, fresh⟩
  · rintro ⟨isRelease, rfl, isExpected, notDarwin, fresh⟩
    refine ⟨_, (accepted _).mpr ⟨fresh, rfl, ?_, ?_⟩⟩
    · refine (checkIdentity_of_isRecorded recorded named).mpr fun other same => ?_
      exact (Option.some.inj same).symm
    · exact fromSnapshot.mpr ⟨isRelease, isExpected, notDarwin⟩

end Acceptance

/-! ## A sample build -/

namespace SampleBuild

open SampleRelease (unlines utf8)

def packageName : String := "macos-auth_0.1.2_ubuntu24.04_arm64.deb"

/-- The lines of the source, in both JSON texts. -/
def sourceLines : List String :=
  ["  \"source\": \x7b",
    "    \"snapshot_sha256\": \"e3b0c44298fc1c149afbf4c8996fb92427ae41e4649b934ca495991b7852b855\",",
    "    \"source_archive_sha256\": \"e3b0c44298fc1c149afbf4c8996fb92427ae41e4649b934ca495991b7852b855\",",
    "    \"source_clean\": true,",
    "    \"source_commit\": \"c0c0c0c0c0c0c0c0c0c0c0c0c0c0c0c0c0c0c0c0\",",
    "    \"source_tree\": \"3e3e3e3e3e3e3e3e3e3e3e3e3e3e3e3e3e3e3e3e\"",
    "  \x7d,"]

def snapshotText : String :=
  unlines (["\x7b", "  \"schema_version\": 1,"] ++ sourceLines ++
    ["  \"version\": \"0.1.2\""]) ++ "\x7d"

def recordText : String :=
  unlines
    (["\x7b",
      "  \"arch\": \"arm64\",",
      "  \"artifact\": \"macos-auth_0.1.2_ubuntu24.04_arm64.deb\",",
      "  \"builder\": \x7b",
      "    \"arch\": \"aarch64\",",
      "    \"os\": \"Linux\"",
      "  \x7d,",
      "  \"built_at_utc\": \"2026-01-03T00:00:00Z\",",
      "  \"distro\": \"ubuntu24.04\",",
      "  \"schema_version\": 1,",
      "  \"sha256\": \"e0ce1a7f3f76d7bfda0ffdae6e0226aa63b3009c4c4a770c321876aecad0a6c1\","] ++
      sourceLines ++
      ["  \"state\": \"linux\",",
        "  \"version\": \"0.1.2\""]) ++ "\x7d"

/-- The source that the snapshot describes. -/
def source : Json :=
  .object (sourceItems SampleRelease.source false SampleRelease.source.sourceArchiveSha256)

/-- The record of the package. -/
def record : Json :=
  .object
    [("arch", .string "arm64"),
      ("artifact", .string packageName),
      ("builder", .object [("arch", .string "aarch64"), ("os", .string "Linux")]),
      ("built_at_utc", .string "2026-01-03T00:00:00Z"),
      ("distro", .string "ubuntu24.04"),
      ("schema_version", .number 1),
      ("sha256", .string SampleRelease.packageDigest),
      ("source", source),
      ("state", .string "linux"),
      ("version", .string "0.1.2")]

/-- `json.loads` for the sample files. -/
def loads (text : String) : Option Json :=
  if text = snapshotText ++ "\n" then some (snapshotJson "0.1.2" source)
  else if text = recordText ++ "\n" then some record
  else none

/-- `json.dumps` for the sample values. Only the record has an artifact. -/
def dumps (value : Json) : String :=
  if (value.items.lookup "artifact").isSome then recordText else snapshotText

theorem carriageReturn_notMem_dumps (value : Json) : '\r' ∉ (dumps value).toList := by
  rw [dumps]
  split
  · exact SampleRelease.carriageReturn_notMem (by decide +kernel)
  · exact SampleRelease.carriageReturn_notMem (by decide +kernel)

def python : Python where
  decode := SampleRelease.decode
  encode text := some (utf8 text)
  loads := loads
  dumps := dumps
  sha256 := SampleRelease.sha256
  isDecimal := Char.isDigit
  str _ := ""
  decode_encode := SampleRelease.python.decode_encode
  encode_dumps _ := ⟨_, rfl⟩
  dumps_plain := carriageReturn_notMem_dumps

def builder : Builder where
  host := SampleRelease.host
  checkout _ _ := .ok
    { tree := { entries := [], valid := by simp, sorted := .nil, separate := .nil }
      manifest := .ok "[package]\nversion = \"0.1.2\"" }
  system := "Linux"
  machine := "aarch64"

def build : Build where
  distro := "ubuntu24.04"
  arch := "arm64"
  state := "linux"
  installPrefix := none

/-- The file that the snapshot has written. -/
def snapshotFile : ArtifactPath where
  directory := AList.singleton "source.json" (.file (utf8 (snapshotText ++ "\n")))
  location := "/stage"
  name := "source.json"

/-- The package that has been built. -/
def artifact : ArtifactPath where
  directory := AList.singleton packageName (.file SampleRelease.package)
  location := "/stage"
  name := packageName

theorem hexDigests : python.HexDigests := by
  intro content
  change isHexDigest (.string (SampleRelease.sha256 content)) = .ok true
  unfold SampleRelease.sha256
  split <;> rfl

theorem loads_snapshotText : loads (snapshotText ++ "\n") = some (snapshotJson "0.1.2" source) := by
  rw [loads, if_pos rfl]

theorem loads_recordText : loads (recordText ++ "\n") = some record := by
  have apart : recordText ++ "\n" ≠ snapshotText ++ "\n" := by
    intro same
    have sizes := congrArg String.utf8ByteSize same
    revert sizes
    decide +kernel
  rw [loads, if_neg apart, if_pos rfl]

theorem python_dumps (value : Json) : python.dumps value = dumps value := rfl

theorem python_loads (text : String) : python.loads text = loads text := rfl

theorem python_encode (text : String) : python.encode text = some (utf8 text) := rfl

theorem readsBack_snapshot : python.ReadsBack (snapshotJson "0.1.2" source) := by
  rw [Python.ReadsBack, python_dumps, dumps, if_neg (by decide), python_loads,
    loads_snapshotText]

theorem readsBack_record : python.ReadsBack record := by
  rw [Python.ReadsBack, python_dumps, dumps, if_pos (by decide), python_loads, loads_recordText]

theorem jsonOf_snapshotText :
    python.jsonOf (utf8 (snapshotText ++ "\n")) = some (snapshotJson "0.1.2" source) := by
  refine Python.jsonOf_of_encode python ?_ readsBack_snapshot
  rw [python_encode, python_dumps, dumps, if_neg (by decide)]

theorem readJson_snapshotFile :
    snapshotFile.readJson python = .ok (snapshotJson "0.1.2" source) :=
  ArtifactPath.readJson_eq_ok.mpr
    ⟨utf8 (snapshotText ++ "\n"), ArtifactPath.readBytes_of_file rfl, jsonOf_snapshotText⟩

theorem recordedItems_eq :
    Json.object (recordedItems python builder artifact build (snapshotJson "0.1.2" source)) =
      record := by
  rfl

theorem artifactName_eq :
    artifactName python (.string "0.1.2") (.string "ubuntu24.04") (.string "arm64")
      (.string "linux") = .ok packageName := by
  have isVersion : isPackageVersion python.isDecimal "0.1.2" = true := by decide +kernel
  have isTarget : ("ubuntu24.04", "arm64") ∈ linuxTargets := by decide
  have isName : linuxName "0.1.2" "ubuntu24.04" "arm64" = packageName := by decide +kernel
  simp only [artifactName, isVersion, isTarget, Json.text?, isName, if_true]

theorem checkBuild_eq :
    checkBuild python snapshotFile artifact build = .ok (snapshotJson "0.1.2" source) := by
  have hasVersion : (snapshotJson "0.1.2" source).item "version" = .ok (.string "0.1.2") := rfl
  exact checkBuild_eq_ok.mpr ⟨readJson_snapshotFile, _, hasVersion, artifactName_eq⟩

theorem artifact_isFresh : artifact.IsFresh := by
  have absent : ∀ name, name ≠ packageName -> artifact.directory.lookup name = none :=
    fun name apart => List.dlookup_cons_ne _ _ apart
  obtain ⟨notMetadata, notChecksum, _⟩ := names_apart packageName
  refine ⟨⟨_, rfl⟩, ?_, ?_⟩
  · rw [ArtifactPath.node]
    exact (absent _ notMetadata.symm).symm ▸ trivial
  · rw [ArtifactPath.node]
    exact (absent _ notChecksum.symm).symm ▸ trivial

theorem exists_recordBuild :
    ∃ after, recordBuild python builder snapshotFile artifact build = (.ok (), after) := by
  rw [recordBuild, checkBuild_eq]
  exact exists_writeRecord_of_fresh artifact_isFresh rfl (python_encode _)

end SampleBuild

open SampleBuild in
theorem recorded_build_accepted_sample :
    ∃ after, recordBuild python builder snapshotFile artifact build = (.ok (), after) ∧
      ∃ record, readRecord python ⟨after, "/stage", packageName⟩
        (some SampleRelease.source) (some "0.1.2") true = .ok record := by
  obtain ⟨after, records⟩ := exists_recordBuild
  have readsBack : python.ReadsBack (.object
      (recordedItems python builder artifact build (snapshotJson "0.1.2" source))) := by
    rw [recordedItems_eq]
    exact readsBack_record
  have described : sourceDescription python builder.host "0.1.2" "HEAD" (!false) =
      .ok (SampleRelease.source, []) := rfl
  exact ⟨after, records, (recorded_build_accepted_iff hexDigests rfl described rfl
    readJson_snapshotFile records readsBack).mpr
      ⟨rfl, rfl, rfl, by decide, artifact_isFresh⟩⟩

end Release
end MacosAuth
