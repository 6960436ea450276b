import MacosAuth.Protocol.Canonical
import MacosAuth.Release.Python
import Mathlib.Data.List.AList
import Mathlib.Data.List.Sort

/-!
# Artifacts and their provenance

The names of release artifacts, the directories that hold them, and `read_record`, which
accepts an artifact together with its two sidecars. A record is accepted for what three
files hold, whatever else is in the directory and wherever the directory is.
-/

namespace MacosAuth
namespace Release

open Codec (Bytes)
open Protocol (bind_eq_ok)

/-! ## Names -/

/-- `LINUX_TARGETS`. -/
def linuxTargets : List (String × String) :=
  [("ubuntu24.04", "arm64"), ("ubuntu25.10", "arm64"), ("rhel9", "aarch64"),
    ("rhel10", "aarch64")]

/-- `SCHEMA`. -/
def schema : Json := .number 1

/-- What follows `\d+` at the front of a text. What may follow it in the pattern is not a
digit, so that all digits are taken. -/
def afterDigits (isDecimal : Char -> Bool) (text : List Char) : Option (List Char) :=
  if text.takeWhile isDecimal = [] then none else some (text.dropWhile isDecimal)

def afterDot : List Char -> Option (List Char)
  | '.' :: rest => some rest
  | _ => none

/-- `re.fullmatch(r"\d+\.\d+\.\d+(?:[-+][A-Za-z0-9.]+)?", version)`. -/
def isPackageVersion (isDecimal : Char -> Bool) (version : String) : Bool :=
  let afterPatch := do
    let minor ← (afterDigits isDecimal version.toList).bind afterDot
    let patch ← (afterDigits isDecimal minor).bind afterDot
    afterDigits isDecimal patch
  match afterPatch with
  | some [] => true
  | some (sign :: label) =>
      (sign == '-' || sign == '+') && !label.isEmpty &&
        label.all fun character => character.isAlphanum || character == '.'
  | none => false

/-- The name of a package for a Linux target. -/
def linuxName (version distro arch : String) : String :=
  if "ubuntu".toList.isPrefixOf distro.toList then
    "macos-auth_" ++ version ++ "_" ++ distro ++ "_" ++ arch ++ ".deb"
  else
    "macos-auth-" ++ version ++ "-1." ++ distro ++ "." ++ arch ++ ".rpm"

/-- The name of a package for macOS. -/
def darwinName (version suffix : String) : String :=
  "macos-auth-" ++ version ++ "-darwin-arm64" ++ suffix ++ ".pkg"

/-- `artifact_name` -/
def artifactName
    (python : Python)
    (version distro arch state : Json) :
    Except Exception String :=
  match version with
  | .string version =>
      if isPackageVersion python.isDecimal version then
        match distro, arch with
        | .string distro, .string arch =>
            if (distro, arch) ∈ linuxTargets then
              if state.text? = some "linux" then
                .ok (linuxName version distro arch)
              else
                .error (.valueError "invalid Linux artifact state")
            else if (distro, arch) = ("darwin", "arm64") ∧
                state.text? ∈ [some "unsigned", some "signed", some "notarized"] then
              .ok (darwinName version (if state.text? = some "signed" then "-signed" else ""))
            else
              .error (.valueError ("unsupported target: " ++ distro ++ "/" ++ arch))
        | _, _ =>
            .error (.valueError
              ("unsupported target: " ++ python.str distro ++ "/" ++ python.str arch))
      else
        .error (.valueError "invalid package version")
  | _ => .error .typeError

/-- `path.suffix`: from the last dot on, if there is something before and after it. -/
def suffix (name : String) : String :=
  let extension := (name.toList.reverse.takeWhile fun character => character != '.').reverse
  if extension.length = 0 ∨ name.toList.length ≤ extension.length + 1 then
    ""
  else
    String.ofList ('.' :: extension)

/-- `name.endswith(ending)`. -/
def endsWith (name ending : String) : Bool :=
  ending.toList.isSuffixOf name.toList

def packageSuffixes : List String := [".deb", ".rpm", ".pkg"]

/-- The names that `package_files` lists. -/
def isFinalPackage (name : String) : Bool :=
  packageSuffixes.contains (suffix name) && !endsWith name "-signed.pkg"

/-- `metadata_path`, for the last part of the path. -/
def metadataName (artifact : String) : String := artifact ++ ".metadata.json"

/-- `checksum_path`, for the last part of the path. -/
def checksumName (artifact : String) : String := artifact ++ ".sha256"

/-! ## Directories -/

/-- What a symbolic link leads to. This is read when the program starts: what is written through
a link goes into the referent of this link only, and another way to the same file does not see
it. -/
inductive Referent
  | file (content : Bytes)
  | missing
  /-- A directory or a special file. -/
  | other

/-- An entry of a directory. -/
inductive Node
  | file (content : Bytes)
  | symlink (referent : Referent)
  | directory (entries : List (Σ _ : String, Node))
  /-- A device that takes what is written to it, or something that cannot be written. -/
  | special (writable : Bool)

/-- The entries of a directory, in the order in which `iterdir` lists them. No two of them
have the same name. -/
abbrev Directory := AList fun _ : String => Node

/-- A path into a directory that is being read. -/
structure ArtifactPath where
  /-- What the directory holds. -/
  directory : Directory
  /-- The path of the directory, for messages. -/
  location : String
  name : String

namespace ArtifactPath

/-- The entry at the path. -/
def node (path : ArtifactPath) : Option Node :=
  path.directory.lookup path.name

def text (path : ArtifactPath) : String :=
  path.location ++ "/" ++ path.name

/-- `metadata_path` -/
def metadataPath (artifact : ArtifactPath) : ArtifactPath :=
  { artifact with name := metadataName artifact.name }

/-- `checksum_path` -/
def checksumPath (artifact : ArtifactPath) : ArtifactPath :=
  { artifact with name := checksumName artifact.name }

def isSymlink (path : ArtifactPath) : Bool :=
  match path.node with
  | some (.symlink _) => true
  | _ => false

def isFile (path : ArtifactPath) : Bool :=
  match path.node with
  | some (.file _) | some (.symlink (.file _)) => true
  | _ => false

/-- `read_bytes` -/
def readBytes (path : ArtifactPath) : Except Exception Bytes :=
  match path.node with
  | some (.file content) | some (.symlink (.file content)) => .ok content
  | _ => .error .osError

/-- `read_text` -/
def readText (python : Python) (path : ArtifactPath) : Except Exception String := do
  let content ← path.readBytes
  match python.textOf content with
  | some text => .ok text
  | none => .error .unicodeError

/-- `json.loads(path.read_text())`. -/
def readJson (python : Python) (path : ArtifactPath) : Except Exception Json := do
  let text ← path.readText python
  match python.loads text with
  | some value => .ok value
  | none => .error .jsonError

/-- `digest` -/
def digest (python : Python) (path : ArtifactPath) : Except Exception String := do
  let content ← path.readBytes
  .ok (python.sha256 content)

end ArtifactPath

/-! ## Provenance records -/

/-- What `source_description` returns. Its `source_clean` is always `True`. -/
structure Description where
  sourceCommit : String
  sourceTree : String
  sourceArchiveSha256 : String

/-- The items of the dictionary, in the order of the keys. -/
def Description.items (description : Description) : List (String × Json) :=
  [("source_archive_sha256", .string description.sourceArchiveSha256),
    ("source_clean", .bool true),
    ("source_commit", .string description.sourceCommit),
    ("source_tree", .string description.sourceTree)]

def Description.json (description : Description) : Json :=
  .object description.items

/-- `any(source.get(key) != value for key, value in items)`. -/
def anyDiffers (source : Json) : List (String × Json) -> Except Exception Bool
  | [] => .ok false
  | (key, value) :: rest => do
      let found ← source.get key
      if found.equals value then anyDiffers source rest else .ok true

/-- `re.fullmatch(r"[0-9a-f]{64}", value)`. -/
def isHexDigest : Json -> Except Exception Bool
  | .string text =>
      .ok (text.toList.length = 64 && text.toList.all fun character =>
        ('0' ≤ character && character ≤ '9') || ('a' ≤ character && character ≤ 'f'))
  | _ => .error .typeError

/-- The first checks of `read_record`: that the record is for this artifact. -/
def checkIdentity
    (python : Python)
    (name : String)
    (version : Option String)
    (record : Json) :
    Except Exception Unit := do
  let version' ← record.get "schema_version"
  refuse (!version'.equals schema) (.valueError s!"unsupported provenance schema: {name}")
  let recordVersion ← record.item "version"
  let distro ← record.item "distro"
  let arch ← record.item "arch"
  let state ← record.item "state"
  let requiredName ← artifactName python recordVersion distro arch state
  let artifact ← record.item "artifact"
  refuse (!artifact.equals (.string name) || name != requiredName)
    (.valueError s!"artifact name/provenance mismatch: {name}")
  match version with
  | none => .ok ()
  | some version =>
      refuse (!recordVersion.equals (.string version))
        (.valueError s!"outdated or mixed artifact version: {name}")

/-- The signed package that a notarized one was made from. -/
def checkSignedInput
    (python : Python)
    (name : String)
    (record : Json) :
    Except Exception Unit := do
  let incomplete := Exception.valueError s!"missing signed-input notarization provenance: {name}"
  let signedInput ← record.getOr "signed_input" (.object [])
  let version ← record.item "version"
  let signedName ← artifactName python version (.string "darwin") (.string "arm64")
    (.string "signed")
  let artifact ← signedInput.get "artifact"
  refuse (!artifact.equals (.string signedName)) incomplete
  let packageDigest ← isHexDigest (← signedInput.getOr "sha256" (.string ""))
  refuse (!packageDigest) incomplete
  let metadataDigest ← isHexDigest (← signedInput.getOr "metadata_sha256" (.string ""))
  refuse (!metadataDigest) incomplete
  let notarizedAt ← record.get "notarized_at_utc"
  refuse (!notarizedAt.isTruthy) incomplete

/-- The last checks of `read_record`: where the artifact comes from. -/
def checkOrigin
    (python : Python)
    (name : String)
    (expected : Option Description)
    (release : Bool)
    (record : Json) :
    Except Exception Unit := do
  let source ← record.item "source"
  if release then
    let clean ← source.get "source_clean"
    refuse (match clean with | .bool true => false | _ => true)
      (.valueError s!"unverified/development source: {name}")
  match expected with
  | none => .ok ()
  | some expected =>
      let differs ← anyDiffers source expected.items
      refuse differs (.valueError s!"source revision/tree/archive mismatch: {name}")
  let snapshot ← isHexDigest (← source.getOr "snapshot_sha256" (.string ""))
  refuse (!snapshot) (.valueError s!"missing builder snapshot digest: {name}")
  let distro ← record.item "distro"
  let state ← record.item "state"
  refuse (release && distro.equals (.string "darwin") && !state.equals (.string "notarized"))
    (.valueError s!"macOS release artifact is not notarized: {name}")
  if state.equals (.string "notarized") then
    checkSignedInput python name record

/-- The line of a checksum file. -/
def checksumLine (digest name : String) : String :=
  digest ++ "  " ++ name ++ "\n"

/-- `read_record` -/
def readRecord
    (python : Python)
    (artifact : ArtifactPath)
    (expected : Option Description)
    (version : Option String)
    (release : Bool) :
    Except Exception Json := do
  refuse (artifact.isSymlink || !artifact.isFile)
    (.valueError s!"artifact is not a regular file: {artifact.text}")
  let sidecar := artifact.metadataPath
  let checksum := artifact.checksumPath
  refuse (sidecar.isSymlink || checksum.isSymlink)
    (.valueError s!"symlink provenance is not supported: {artifact.name}")
  let record ← sidecar.readJson python
  checkIdentity python artifact.name version record
  let recorded ← record.item "sha256"
  let digest ← artifact.digest python
  refuse (!recorded.equals (.string digest))
    (.valueError s!"artifact hash mismatch: {artifact.name}")
  let line ← checksum.readText python
  refuse (line != checksumLine digest artifact.name)
    (.valueError s!"builder checksum mismatch: {artifact.name}")
  checkOrigin python artifact.name expected release record
  .ok record

/-! ## What is accepted -/

/-- The contents of an artifact and of its sidecars. -/
structure Bundle where
  package : Bytes
  metadata : Bytes
  checksum : Bytes

/-- The three files are regular files with these contents. -/
def ArtifactPath.Holds (artifact : ArtifactPath) (bundle : Bundle) : Prop :=
  artifact.node = some (.file bundle.package) ∧
    artifact.metadataPath.node = some (.file bundle.metadata) ∧
    artifact.checksumPath.node = some (.file bundle.checksum)

/-- What `read_record` asks of the contents. -/
structure Bundle.Genuine
    (python : Python)
    (name : String)
    (expected : Option Description)
    (version : Option String)
    (release : Bool)
    (bundle : Bundle)
    (record : Json) :
    Prop where
  parsed : python.jsonOf bundle.metadata = some record
  identity : checkIdentity python name version record = .ok ()
  digest : record.item "sha256" = .ok (.string (python.sha256 bundle.package))
  line : python.textOf bundle.checksum =
    some (checksumLine (python.sha256 bundle.package) name)
  origin : checkOrigin python name expected release record = .ok ()

namespace ArtifactPath

variable {python : Python} {path artifact : ArtifactPath}

theorem Holds.unique
    {bundle other : Bundle}
    (holds : artifact.Holds bundle)
    (holdsOther : artifact.Holds other) :
    bundle = other := by
  obtain ⟨package, metadata, checksum⟩ := holds
  obtain ⟨otherPackage, otherMetadata, otherChecksum⟩ := holdsOther
  rw [package, Option.some.injEq, Node.file.injEq] at otherPackage
  rw [metadata, Option.some.injEq, Node.file.injEq] at otherMetadata
  rw [checksum, Option.some.injEq, Node.file.injEq] at otherChecksum
  cases bundle
  cases other
  simp_all

theorem readBytes_of_file
    {content : Bytes}
    (file : path.node = some (.file content)) :
    path.readBytes = .ok content := by
  rw [readBytes, file]

/-- A file that is not a symbolic link is read from its own content. -/
theorem readBytes_eq_ok
    {content : Bytes}
    (noLink : path.isSymlink = false) :
    path.readBytes = .ok content ↔ path.node = some (.file content) := by
  refine ⟨fun read => ?_, readBytes_of_file⟩
  unfold readBytes at read
  split at read
  · rename_i other node
    rw [node, Except.ok.inj read]
  · rename_i other node
    simp [isSymlink, node] at noLink
  · cases read

section Lookup

variable {here there : Directory} {location name : String}

/-- What is read depends on the entry alone. -/
theorem readBytes_congr (same : here.lookup name = there.lookup name) :
    readBytes { directory := here, location, name } =
      readBytes { directory := there, location, name } := by
  simp only [readBytes, node, same]

theorem readText_congr (same : here.lookup name = there.lookup name) :
    readText python { directory := here, location, name } =
      readText python { directory := there, location, name } := by
  rw [readText, readBytes_congr same, readText]

theorem readJson_congr (same : here.lookup name = there.lookup name) :
    readJson python { directory := here, location, name } =
      readJson python { directory := there, location, name } := by
  rw [readJson, readText_congr same, readJson]

/-- What is not there is not read. -/
theorem readText_ne_ok_of_missing
    (missing : here.lookup name = none)
    (text : String) :
    readText python { directory := here, location, name } ≠ .ok text := by
  simp [readText, readBytes, node, missing, bind, Except.bind]

theorem readJson_ne_ok_of_missing
    (missing : here.lookup name = none)
    (value : Json) :
    readJson python { directory := here, location, name } ≠ .ok value := by
  simp [readJson, readText, readBytes, node, missing, bind, Except.bind]

end Lookup

theorem isSymlink_of_file
    {content : Bytes}
    (file : path.node = some (.file content)) :
    path.isSymlink = false := by
  rw [isSymlink, file]

theorem isRegular_iff :
    path.isSymlink = false ∧ path.isFile = true ↔
      ∃ content, path.node = some (.file content) := by
  unfold isSymlink isFile
  rcases path.node with _ | node
  · simp
  · rcases node with content | (content | _ | _) | entries | writable <;> simp

theorem readText_eq_ok {text : String} :
    path.readText python = .ok text ↔
      ∃ content, path.readBytes = .ok content ∧ python.textOf content = some text := by
  simp only [readText, bind_eq_ok]
  refine exists_congr fun content => and_congr_right fun _ => ?_
  cases python.textOf content <;> simp

theorem readJson_eq_ok {value : Json} :
    path.readJson python = .ok value ↔
      ∃ content, path.readBytes = .ok content ∧ python.jsonOf content = some value := by
  have loaded (text : String) :
      (match python.loads text with
        | some value => Except.ok value
        | none => Except.error Exception.jsonError) = .ok value ↔
        python.loads text = some value := by
    cases python.loads text <;> simp
  simp only [readJson, bind_eq_ok, readText_eq_ok, loaded, Python.jsonOf,
    Option.bind_eq_some_iff]
  grind

end ArtifactPath

/-- An artifact is accepted for what its three files hold. -/
theorem readRecord_eq_ok
    {python : Python}
    {artifact : ArtifactPath}
    {expected : Option Description}
    {version : Option String}
    {release : Bool}
    {record : Json} :
    readRecord python artifact expected version release = .ok record ↔
      ∃ bundle, artifact.Holds bundle ∧
        bundle.Genuine python artifact.name expected version release record := by
  simp only [readRecord, bind_eq_ok, refuse_eq_ok, exists_and_left, exists_const,
    Bool.or_eq_false_iff, Bool.not_eq_eq_eq_not, Bool.not_false,
    Json.equals_string, bne_eq_false_iff_eq, ArtifactPath.isRegular_iff]
  constructor
  · rintro ⟨⟨package, regular⟩, ⟨noLink, noChecksumLink⟩, found, read, ⟨⟩, identity, recorded,
      has, digest, digested, equal, line, lineRead, rfl, ⟨⟩, origin, same⟩
    obtain ⟨metadata, metadataRead, parsed⟩ := ArtifactPath.readJson_eq_ok.mp read
    obtain ⟨checksum, checksumRead, lineText⟩ := ArtifactPath.readText_eq_ok.mp lineRead
    rw [ArtifactPath.readBytes_eq_ok noLink] at metadataRead
    rw [ArtifactPath.readBytes_eq_ok noChecksumLink] at checksumRead
    have digestEq : python.sha256 package = digest := by
      simpa [ArtifactPath.digest, ArtifactPath.readBytes_of_file regular, bind, Except.bind]
        using digested
    subst digestEq
    rw [equal] at has
    rw [← Except.ok.inj same]
    exact ⟨⟨package, metadata, checksum⟩, ⟨regular, metadataRead, checksumRead⟩,
      ⟨parsed, identity, has, lineText, origin⟩⟩
  · rintro ⟨bundle, ⟨regular, metadata, checksum⟩, genuine⟩
    refine ⟨⟨_, regular⟩, ⟨ArtifactPath.isSymlink_of_file metadata,
      ArtifactPath.isSymlink_of_file checksum⟩, record,
      ArtifactPath.readJson_eq_ok.mpr ⟨_, ArtifactPath.readBytes_of_file metadata, genuine.parsed⟩,
      (), genuine.identity, _, genuine.digest, python.sha256 bundle.package, ?_, rfl, _,
      ArtifactPath.readText_eq_ok.mpr ⟨_, ArtifactPath.readBytes_of_file checksum, genuine.line⟩,
      rfl, (), genuine.origin, rfl⟩
    simp [ArtifactPath.digest, ArtifactPath.readBytes_of_file regular, bind, Except.bind]

end Release
end MacosAuth
