import MacosAuth.Collections.LastWins
import MacosAuth.Release.Artifacts

/-!
# Collecting and verifying a release

`collect` gathers the packages of several source directories, checks each against its
provenance and against the other copies of it, assembles a release in a work area and copies
it into the output directory. `verify` checks a release directory.

What the functions learn from Git, from `scp` and from the disk is in `Host`. The disk has
room, and files are not changed by others while a function runs.
-/

namespace MacosAuth
namespace Release

open Codec (Bytes)

/-! ## The surroundings -/

/-- Where the work area `target/package/collection-work` of the repository is, seen from the
output directory. A link on this path may lead out of the output directory, so that the work
area is apart from it, but not to another place in it. -/
inductive WorkArea
  | apart
  /-- The repository is this path below the output directory. -/
  | repository (path : List String)
  /-- The output directory is `target`. -/
  | target
  /-- The output directory is `target/package`. -/
  | package
  /-- The output directory is the work area. -/
  | itself

/-- What the functions learn from outside. -/
structure Host where
  /-- The function `git`: the output of a command, decoded and stripped. -/
  git : List String -> Except Exception String
  /-- The output of `git archive --format=tar` for a commit. -/
  archive : String -> Except Exception Bytes
  /-- `Path(path).resolve()`. -/
  resolve : String -> String
  resolve_resolve : ∀ path, resolve (resolve path) = resolve path
  /-- What there is at a resolved path, if it is a directory. -/
  directory : String -> Option Directory
  /-- What `scp` leaves for a source of the given number, if it is a directory. -/
  fetch : Nat -> String -> Except Exception (Option Directory)
  /-- The path of the directory that `stage` makes. -/
  work : String
  workArea : WorkArea
  now : String
  /-- The order in which `iterdir` lists a directory with these names. -/
  listing : List String -> List String
  listing_perm : ∀ names, (listing names).Perm names

/-! ## The source revision -/

/-- `^version = "([^"]+)"$` at the start of a line. -/
def matchVersionLine (text : List Char) : Option (List Char) := do
  let rest ← "version = \"".toList.isPrefixOf? text
  let version := rest.takeWhile fun character => character != '"'
  match rest.dropWhile fun character => character != '"' with
  | '"' :: after =>
      if version ≠ [] ∧ (after = [] ∨ after.head? = some '\n') then some version else none
  | _ => none

/-- `re.search` for the pattern with `re.MULTILINE`. -/
def searchVersion (atStart : Bool) : List Char -> Option String
  | [] => none
  | character :: rest =>
      match if atStart then matchVersionLine (character :: rest) else none with
      | some version => some (String.ofList version)
      | none => searchVersion (character == '\n') rest

/-- `source_description` -/
def sourceDescription
    (python : Python)
    (host : Host)
    (version revision : String)
    (requireVersion : Bool) :
    Except Exception (Description × Bytes) := do
  let commit ← host.git ["rev-parse", "--verify", revision ++ "^\x7bcommit\x7d"]
  let manifest ← host.git ["show", commit ++ ":crates/helper/Cargo.toml"]
  refuse (requireVersion && searchVersion true manifest.toList != some version)
    (.valueError "requested version does not match the committed helper manifest")
  let archive ← host.archive commit
  let tree ← host.git ["rev-parse", commit ++ "^\x7btree\x7d"]
  .ok ({ sourceCommit := commit
         sourceTree := tree
         sourceArchiveSha256 := python.sha256 archive }, archive)

/-- `expected_source` -/
def expectedSource
    (python : Python)
    (host : Host)
    (version revision : String) :
    Except Exception Description := do
  let described ← sourceDescription python host version revision true
  .ok described.1

/-! ## The work area -/

/-- Set an entry of a directory. -/
def assign (entries : List (Σ _ : String, Node)) (name : String) (node : Node) :
    List (Σ _ : String, Node) :=
  match entries with
  | [] => [⟨name, node⟩]
  | entry :: rest =>
      if entry.1 = name then ⟨name, node⟩ :: rest else entry :: assign rest name node

/-- Make the directories of a path below an entry, as far as they are not there. -/
def makeDirectories : List String -> Option Node -> Except Exception Node
  | [], none => .ok (.directory [])
  | [], some (.directory entries) => .ok (.directory entries)
  | name :: rest, none => do
      let node ← makeDirectories rest none
      .ok (.directory [⟨name, node⟩])
  | name :: rest, some (.directory entries) => do
      let node ← makeDirectories rest (entries.dlookup name)
      .ok (.directory (assign entries name node))
  | _, some _ => .error .osError

/-- Does a path below an entry lead to a directory? -/
def reachesDirectory : List String -> Option Node -> Bool
  | [], some (.directory _) => true
  | name :: rest, some (.directory entries) => reachesDirectory rest (entries.dlookup name)
  | _, _ => false

/-- The path of the repository and what `stage` makes below it, seen from the output
directory. -/
def WorkArea.path : WorkArea -> Option (List String × List String)
  | .apart => none
  | .repository path => some (path, ["target", "package", "collection-work"])
  | .target => some ([], ["package", "collection-work"])
  | .package => some ([], ["collection-work"])
  | .itself => some ([], [])

/-- What the call of `stage` leaves in the output directory. The directory of the run itself
is taken away again in the end, and its name is not one that `collect` looks for. The
repository is there, so that its path leads to a directory. -/
def stage (host : Host) (out : Option Directory) : Except Exception (Option Directory) :=
  match host.workArea.path with
  | none => .ok out
  | some (above, made) =>
      match above ++ made with
      | [] => .ok (some (out.getD ∅))
      | name :: rest => do
          let entries := out.getD ∅
          refuse (!above.isEmpty && !reachesDirectory above.tail (entries.lookup name)) .osError
          let node ← makeDirectories rest (entries.lookup name)
          .ok (some (entries.insert name node))

/-! ## Gathering the packages -/

/-- `sorted(names)`. -/
def sorted (names : List String) : List String :=
  names.insertionSort fun left right => left ≤ right

/-- `package_files`: the names of the packages in a directory. -/
def packageFiles (directory : Directory) : List String :=
  sorted (directory.keys.filter isFinalPackage)

/-- The arguments of `collect`. -/
structure Request where
  outDir : String
  sources : List String
  version : String
  revision : String
  clean : Bool
  macosOnly : Bool

/-- The latest copy of each package. -/
abbrev Chosen := AList fun _ : String => ArtifactPath

variable (python : Python) (host : Host) (request : Request)

/-- `request.macosOnly` accepts packages for macOS only. -/
def checkScope (package : ArtifactPath) (record : Json) : Except Exception Unit :=
  refuse (request.macosOnly && !(record.field "distro").equals (.string "darwin"))
    (.valueError
      s!"unexpected Linux artifact in explicit macOS-only collection: {package.name}")

/-- Are the two copies of a package different? -/
def differs (previous package : ArtifactPath) : Except Exception Bool := do
  let previousDigest ← previous.digest python
  let digest ← package.digest python
  if previousDigest != digest then
    .ok true
  else
    let previousMetadata ← previous.metadataPath.readBytes
    let metadata ← package.metadataPath.readBytes
    .ok (previousMetadata != metadata)

/-- The comparison with the copy that was kept. -/
def compareWithKept (chosen : Chosen) (package : ArtifactPath) : Except Exception Unit :=
  match chosen.lookup package.name with
  | none => .ok ()
  | some previous => do
      let conflict ← differs python previous package
      refuse conflict (.valueError s!"conflicting duplicate artifact: {package.name}")

/-- The body of the loop over the packages of a source. -/
def choose
    (expected : Description)
    (chosen : Chosen)
    (package : ArtifactPath) :
    Except Exception Chosen := do
  let record ← readRecord python package (some expected) (some request.version) true
  checkScope request package record
  compareWithKept python chosen package
  .ok (chosen.insert package.name package)

/-- Is the source on another machine? -/
def isRemote (source : String) : Bool :=
  source.toList.contains ':'

/-- The directory that a source on this machine stands for. -/
def sourceDirectory (out : Option Directory) (source : String) : Option Directory :=
  if host.resolve source = host.resolve request.outDir then out
  else host.directory (host.resolve source)

/-- The directory that a source stands for, and its path. -/
def openSource
    (out : Option Directory)
    (index : Nat)
    (source : String) :
    Except Exception (Directory × String) := do
  let found ←
    if isRemote source then host.fetch index source
    else .ok (sourceDirectory host request out source)
  match found with
  | some directory =>
      .ok (directory,
        if isRemote source then s!"{host.work}/remote-{index}" else host.resolve source)
  | none => .error (.valueError s!"source directory not found: {source}")

/-- The packages of a source. -/
def sourcePackages
    (out : Option Directory)
    (index : Nat)
    (source : String) :
    Except Exception (List ArtifactPath) := do
  let (directory, location) ← openSource host request out index source
  refuse (packageFiles directory).isEmpty
    (.valueError s!"no final package artifacts in source: {source}")
  .ok ((packageFiles directory).map fun name => { directory, location, name })

/-- The loop over the sources. -/
def gather
    (expected : Description)
    (out : Option Directory) :
    Nat -> List String -> Chosen -> Except Exception Chosen
  | _, [], chosen => .ok chosen
  | index, source :: rest, chosen => do
      let packages ← sourcePackages host request out index source
      let chosen ← packages.foldlM (choose python request expected) chosen
      gather expected out (index + 1) rest chosen

/-- The sources with what is already in the output directory. -/
def allSources (out : Option Directory) : List String :=
  match out with
  | some directory =>
      if !request.clean && !(packageFiles directory).isEmpty then
        host.resolve request.outDir :: request.sources
      else
        request.sources
  | none => request.sources

/-! ## Assembling the release -/

/-- `shutil.copy2(path, assembled / path.name)`. -/
def copyAside (assembled : Directory) (path : ArtifactPath) : Except Exception Directory := do
  let content ← path.readBytes
  .ok (assembled.insert path.name (.file content))

/-- Copy a package with its sidecars. -/
def copyPackage (assembled : Directory) (package : ArtifactPath) :
    Except Exception Directory := do
  let assembled ← copyAside assembled package
  let assembled ← copyAside assembled package.metadataPath
  copyAside assembled package.checksumPath

/-- Copy the chosen packages, `chosen.values()`. -/
def copyChosen (chosen : Chosen) : Except Exception Directory :=
  (chosen.entries.map fun entry => entry.2).foldlM copyPackage ∅

/-- What `f"{value}"` is. -/
def format (value : Json) : String :=
  (value.text?).getD (python.str value)

/-- `record["distro"] == "darwin"`. -/
def isMacos (record : Json) : Bool :=
  (record.field "distro").equals (.string "darwin")

/-- The entry of the index for a record. -/
def indexEntry (assembled : Directory) (location : String) (record : Json) :
    Except Exception Json := do
  let artifact := (record.field "artifact")
  let package : ArtifactPath := { directory := assembled, location, name := format python artifact }
  let metadata ← package.metadataPath.digest python
  .ok (.object [("artifact", artifact), ("metadata_sha256", .string metadata)])

/-- The index of the release, with its items in the order of the keys. -/
def releaseIndex
    (expected : Description)
    (collectorRevision : String)
    (dirty : Bool)
    (entries : List Json) :
    Json :=
  .object
    [("artifacts", .array entries),
      ("collected_at_utc", .string host.now),
      ("collector", .object [("dirty", .bool dirty), ("revision", .string collectorRevision)]),
      ("kind", .string "collection"),
      ("schema_version", schema),
      ("source", expected.json),
      ("version", .string request.version)]

/-- The records of one of the two platforms. -/
def platformRecords (macos : Bool) (records : List Json) : List Json :=
  records.filter fun record => isMacos record == macos

/-- The text of a checksum list. -/
def checksums (records : List Json) : String :=
  String.join (records.map fun record =>
    checksumLine (format python (record.field "sha256")) (format python (record.field "artifact")))

/-- `write_text` -/
def writeText (assembled : Directory) (name text : String) : Except Exception Directory :=
  match python.encode text with
  | some content => .ok (assembled.insert name (.file content))
  | none => .error .unicodeError

/-- `json_write` -/
def writeJson (assembled : Directory) (name : String) (value : Json) :
    Except Exception Directory :=
  writeText python assembled name (python.dumps value ++ "\n")

/-- The checksum list for Linux, if there are packages for it. -/
def writeLinuxList (assembled : Directory) (subset : List Json) : Except Exception Directory :=
  if subset.isEmpty then .ok assembled
  else writeText python assembled "SHA256SUMS" (checksums python subset)

/-- The checksum list for macOS and the index beside it, if there is a package for it. -/
def writeMacosList (assembled : Directory) (subset : List Json) (index : Json) :
    Except Exception Directory :=
  if subset.isEmpty then
    .ok assembled
  else do
    let assembled ← writeText python assembled "SHA256SUMS-darwin-arm64" (checksums python subset)
    writeJson python assembled "BUILD-METADATA-darwin-arm64.txt" index

/-- The index and the checksum lists. -/
def writeLists (assembled : Directory) (records : List Json) (index : Json) :
    Except Exception Directory := do
  let assembled ← writeJson python assembled "BUILD-METADATA.txt" index
  let assembled ← writeLinuxList python assembled (platformRecords false records)
  writeMacosList python assembled (platformRecords true records) index

/-- The copies of the chosen packages, their records, and the index. -/
def describe (expected : Description) (chosen : Chosen) :
    Except Exception (Directory × List Json × Json) := do
  let copied ← copyChosen chosen
  let location := s!"{host.work}/assembled"
  let records ← (sorted chosen.keys).mapM fun name =>
    readRecord python { directory := copied, location, name } (some expected)
      (some request.version) true
  let revision ← host.git ["rev-parse", "HEAD"]
  let status ← host.git ["status", "--porcelain", "--untracked-files=all"]
  let entries ← records.mapM (indexEntry python copied location)
  .ok (copied, records, releaseIndex host request expected revision (status != "") entries)

/-- The release, from the chosen packages. -/
def assemble (expected : Description) (chosen : Chosen) : Except Exception Directory := do
  refuse chosen.keys.isEmpty (.valueError "no package artifacts collected")
  let (copied, records, index) ← describe python host request expected chosen
  writeLists python copied records index

/-! ## Writing the output directory -/

/-- `known_names`. -/
def knownNames : List String :=
  ["SHA256SUMS", "SHA256SUMS-darwin-arm64", "BUILD-METADATA.txt",
    "BUILD-METADATA-darwin-arm64.txt"]

/-- The names that `clean` takes away. -/
def isCleaned (name : String) : Bool :=
  knownNames.contains name || packageSuffixes.contains (suffix name) ||
    [".deb.metadata.json", ".rpm.metadata.json", ".pkg.metadata.json", ".deb.sha256",
      ".rpm.sha256", ".pkg.sha256"].any (endsWith name)

/-- Files and symbolic links can be unlinked. -/
def Node.isUnlinked : Node -> Bool
  | .file _ | .symlink _ => true
  | _ => false

/-- What the clean-up does for a name. -/
def unlinkCleaned (out : Directory) (name : String) : Directory :=
  match out.lookup name with
  | some node => if isCleaned name && node.isUnlinked then out.erase name else out
  | none => out

/-- The clean-up of the output directory. -/
def cleanUp (out : Directory) : Directory :=
  out.keys.foldl unlinkCleaned out

/-- `shutil.copy2` to a path with this name in a directory of the output directory. What is
written through a link there is no other entry's, as its referent has it. -/
def writeInside (entries : List (Σ _ : String, Node)) (name : String) (content : Bytes) :
    Except Exception (List (Σ _ : String, Node)) :=
  match entries.dlookup name with
  | none | some (.file _) => .ok (assign entries name (.file content))
  | some (.symlink .other) | some (.directory _) => .error .osError
  | some (.symlink _) => .ok (assign entries name (.symlink (.file content)))
  | some (.special writable) => if writable then .ok entries else .error .osError

/-- What is at a name of the output directory once a file has been copied to it. A file that
is copied to a directory is put into it. -/
def copyTo (name : String) (content : Bytes) : Option Node -> Except Exception Node
  | none | some (.file _) => .ok (.file content)
  | some (.symlink _) =>
      .error (.valueError s!"refusing symlink output: {host.resolve request.outDir}/{name}")
  | some (.directory entries) => do
      let entries ← writeInside entries name content
      .ok (.directory entries)
  | some (.special writable) => if writable then .ok (.special writable) else .error .osError

/-- What is at a name of the output directory once the assembled file has been copied to it. -/
def copyAssembled (assembled : Directory) (name : String) (node : Option Node) :
    Except Exception Node := do
  let content ← ArtifactPath.readBytes { directory := assembled, location := "", name }
  copyTo host request name content node

/-- The loop over the assembled files. What was copied before an error stays. -/
def copyOut (assembled : Directory) :
    List String -> Directory -> Except Exception Unit × Directory
  | [], out => (.ok (), out)
  | name :: rest, out =>
      match copyAssembled host request assembled name (out.lookup name) with
      | .ok node => copyOut assembled rest (out.insert name node)
      | .error error => (.error error, out)

/-- What `collect` does up to the first change of the output directory: from the sources to the
assembled release. -/
def prepareRelease (expected : Description) (staged : Option Directory) :
    Except Exception Directory := do
  let chosen ← gather python host request expected staged 0 (allSources host request staged) ∅
  assemble python host request expected chosen

/-- `collect`: how the call ends, and the output directory after it. The final `print` and
`rmtree` are taken to succeed. -/
def collect (out : Option Directory) : Except Exception Unit × Option Directory :=
  match expectedSource python host request.version request.revision with
  | .error error => (.error error, out)
  | .ok expected =>
      match stage host out with
      | .error error => (.error error, out)
      | .ok staged =>
          match prepareRelease python host request expected staged with
          | .error error => (.error error, staged)
          | .ok assembled =>
              let made := staged.getD ∅
              let cleaned := if request.clean then cleanUp made else made
              let (result, after) :=
                copyOut host request assembled (host.listing assembled.keys) cleaned
              (result, some after)

/-! ## Verification -/

/-- The machine that a release is verified on. -/
structure Platform where
  /-- `sys.platform` -/
  system : String
  /-- `subprocess.run` with `check=True`. -/
  run : List String -> Except Exception Unit

/-- The arguments of `verify`. -/
structure Scope where
  version : String
  revision : String
  requireMacos : Bool
  platformChecks : Bool
  macosOnly : Bool

variable (scope : Scope)

/-- The name of the macOS package. -/
def macosName (version : String) : Except Exception String :=
  artifactName python (.string version) (.string "darwin") (.string "arm64") (.string "notarized")

/-- The names of the Linux packages. -/
def linuxNames (version : String) : Except Exception (List String) :=
  linuxTargets.mapM fun target =>
    artifactName python (.string version) (.string target.1) (.string target.2) (.string "linux")

/-- The names of the packages that there have to be. -/
def requiredNames : Except Exception (List String) := do
  let linux ← if scope.macosOnly then .ok [] else linuxNames python scope.version
  if scope.requireMacos || scope.macosOnly then
    let macos ← macosName python scope.version
    .ok (linux ++ [macos])
  else
    .ok linux

/-- The check of a checksum list. -/
def checkList (directory : Directory) (location name : String) (subset : List Json) :
    Except Exception Unit :=
  if subset.isEmpty then
    .ok ()
  else do
    let text ← ArtifactPath.readText python { directory, location, name }
    refuse (text != checksums python subset)
      (.valueError s!"incomplete or mismatched checksums: {name}")

/-- Does the index match the version, the source and the packages? -/
def indexMatches (expected : Description) (entries : List Json) (index : Json) :
    Except Exception Bool := do
  let schemaVersion ← index.get "schema_version"
  let kind ← index.get "kind"
  let version ← index.get "version"
  let source ← index.get "source"
  let artifacts ← index.get "artifacts"
  .ok (schemaVersion.equals schema && kind.equals (.string "collection") &&
    version.equals (.string scope.version) && source.equals expected.json &&
    artifacts.equals (.array entries))

/-- The Apple commands for the macOS package. -/
def appleCommands (package : String) : List (List String) :=
  [["xcrun", "stapler", "validate", package], ["pkgutil", "--check-signature", package],
    ["spctl", "--assess", "--type", "install", "-vv", package]]

/-- The checks of the macOS package. -/
def checkMacos (platform : Platform) (directory : Directory) (location name : String)
    (index : Json) : Except Exception Unit := do
  let other ← ArtifactPath.readJson python
    { directory, location, name := "BUILD-METADATA-darwin-arm64.txt" }
  refuse (!other.equals index) (.valueError "macOS collection metadata mismatch")
  if scope.platformChecks && platform.system == "darwin" then
    (appleCommands s!"{location}/{name}").forM platform.run

/-- `verify`, for a directory and its path. -/
def verify (platform : Platform) (directory : Directory) (location : String) :
    Except Exception Unit := do
  refuse (scope.macosOnly && scope.platformChecks && platform.system != "darwin")
    (.valueError "macOS-only release verification requires macOS for signature, stapler, and Gatekeeper checks")
  let expected ← expectedSource python host scope.version scope.revision
  let required ← requiredNames python scope
  let macos ← macosName python scope.version
  let found := packageFiles directory
  let missing := required.filter fun name => !found.contains name
  refuse (!missing.isEmpty)
    (.valueError ("missing artifacts: " ++ ", ".intercalate (sorted missing)))
  let unexpected := found.filter fun name => !(required ++ [macos]).contains name
  refuse (!unexpected.isEmpty)
    (.valueError ("unexpected/mixed artifacts: " ++ ", ".intercalate (sorted unexpected)))
  let records ← found.mapM fun name =>
    readRecord python { directory, location, name } (some expected) (some scope.version) true
  let index ← ArtifactPath.readJson python { directory, location, name := "BUILD-METADATA.txt" }
  let entries ← records.mapM (indexEntry python directory location)
  let isMatching ← indexMatches scope expected entries index
  refuse (!isMatching)
    (.valueError "collection metadata does not match builder provenance")
  checkList python directory location "SHA256SUMS" (platformRecords false records)
  checkList python directory location "SHA256SUMS-darwin-arm64" (platformRecords true records)
  if found.contains macos then
    checkMacos python scope platform directory location macos index

end Release
end MacosAuth
