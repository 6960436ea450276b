import MacosAuth.Release.Collect

/-!
# The names in a release and the records of its packages

The files of a release have four kinds of names: packages, their two sidecars, and the
lists. The last character of a name tells which kind it is. The records of the accepted
packages then say the same wherever the package is: they hold its name and its digest, and
whether it is for macOS can be read off the name.
-/

namespace MacosAuth
namespace Release

open Codec (Bytes)
open Protocol (bind_eq_ok)

/-! ## Names -/

/-- The suffix of a name is the end of the name. -/
theorem suffix_isSuffix (name : String) : (suffix name).toList <:+ name.toList := by
  unfold suffix
  extract_lets extension
  split
  · simp
  · rename_i inside
    rw [not_or, not_le] at inside
    rw [String.toList_ofList]
    have whole := List.takeWhile_append_dropWhile (p := fun character => character != '.')
      (l := name.toList.reverse)
    have ends : name.toList =
        (name.toList.reverse.dropWhile fun character => character != '.').reverse ++ extension := by
      rw [← List.reverse_append, whole, List.reverse_reverse]
    cases rest : name.toList.reverse.dropWhile fun character => character != '.' with
    | nil =>
        rw [rest, List.reverse_nil, List.nil_append] at ends
        rw [ends] at inside
        omega
    | cons dot front =>
        have isDot : dot = '.' := by
          have stopped := List.head?_dropWhile_not (fun character => character != '.')
            name.toList.reverse
          simpa [rest] using stopped
        subst isDot
        rw [rest, List.reverse_cons, List.append_assoc, List.singleton_append] at ends
        exact ⟨_, ends.symm⟩

/-- The last character of a name. -/
def lastCharacter (name : String) : Option Char :=
  name.toList.getLast?

theorem lastCharacter_append
    (name : String)
    {ending : String}
    (nonempty : ending.toList ≠ []) :
    lastCharacter (name ++ ending) = lastCharacter ending := by
  rw [lastCharacter, lastCharacter, String.toList_append, List.getLast?_append_of_ne_nil _ nonempty]

@[simp] theorem lastCharacter_metadataName (name : String) :
    lastCharacter (metadataName name) = some 'n' :=
  lastCharacter_append name (by decide)

@[simp] theorem lastCharacter_checksumName (name : String) :
    lastCharacter (checksumName name) = some '6' :=
  lastCharacter_append name (by decide)

/-- A package ends with one of the three suffixes. -/
theorem exists_suffix_of_isFinalPackage
    {name : String}
    (isFinal : isFinalPackage name = true) :
    ∃ ending ∈ packageSuffixes, ending.toList <:+ name.toList := by
  rw [isFinalPackage, Bool.and_eq_true, List.contains_iff_mem] at isFinal
  exact ⟨_, isFinal.1, suffix_isSuffix name⟩

theorem lastCharacter_of_isFinalPackage
    {name : String}
    (isFinal : isFinalPackage name = true) :
    lastCharacter name ∈ [some 'b', some 'm', some 'g'] := by
  obtain ⟨ending, member, front, split⟩ := exists_suffix_of_isFinalPackage isFinal
  rw [lastCharacter, ← split]
  simp only [packageSuffixes, List.mem_cons, List.not_mem_nil, or_false] at member
  rcases member with rfl | rfl | rfl <;> simp

/-- The names of the lists have other last characters. -/
theorem lastCharacter_of_mem_knownNames
    {name : String}
    (known : name ∈ knownNames) :
    lastCharacter name ∈ [some 'S', some '4', some 't'] := by
  simp only [knownNames, List.mem_cons, List.not_mem_nil, or_false] at known
  rcases known with rfl | rfl | rfl | rfl <;> decide

theorem not_isFinalPackage_metadataName (name : String) :
    isFinalPackage (metadataName name) = false := by
  by_contra isFinal
  have last := lastCharacter_of_isFinalPackage (Bool.eq_true_of_not_eq_false isFinal)
  simp at last

theorem not_isFinalPackage_checksumName (name : String) :
    isFinalPackage (checksumName name) = false := by
  by_contra isFinal
  have last := lastCharacter_of_isFinalPackage (Bool.eq_true_of_not_eq_false isFinal)
  simp at last

theorem not_isFinalPackage_of_known
    {name : String}
    (known : name ∈ knownNames) :
    isFinalPackage name = false := by
  by_contra isFinal
  have last := lastCharacter_of_isFinalPackage (Bool.eq_true_of_not_eq_false isFinal)
  have other := lastCharacter_of_mem_knownNames known
  simp only [List.mem_cons, List.not_mem_nil, or_false] at last other
  rcases last with last | last | last <;> rw [last] at other <;> simp at other

theorem metadataName_injective : Function.Injective metadataName := by
  intro left right equal
  simpa [metadataName] using equal

theorem checksumName_injective : Function.Injective checksumName := by
  intro left right equal
  simpa [checksumName] using equal

/-- The three files of a package. -/
inductive Role
  | package
  | metadata
  | checksum

namespace Role

/-- The name of a file of a package, from the name of the package. -/
def nameOf : Role -> String -> String
  | .package => id
  | .metadata => metadataName
  | .checksum => checksumName

/-- Files of packages have one name only if they are the same file. -/
theorem nameOf_inj
    {role role' : Role}
    {name name' : String}
    (isFinal : isFinalPackage name = true)
    (isFinal' : isFinalPackage name' = true)
    (equal : role.nameOf name = role'.nameOf name') :
    role = role' ∧ name = name' := by
  have last := congrArg lastCharacter equal
  have final := lastCharacter_of_isFinalPackage isFinal
  have final' := lastCharacter_of_isFinalPackage isFinal'
  cases role <;> cases role' <;> simp only [nameOf, id_eq, lastCharacter_metadataName,
    lastCharacter_checksumName] at equal last
  · exact ⟨rfl, equal⟩
  · simp [last] at final
  · simp [last] at final
  · simp [← last] at final'
  · exact ⟨rfl, metadataName_injective equal⟩
  · cases last
  · simp [← last] at final'
  · cases last
  · exact ⟨rfl, checksumName_injective equal⟩

/-- The files of packages are not lists. -/
theorem nameOf_notMem_knownNames
    {role : Role}
    {name : String}
    (isFinal : isFinalPackage name = true) :
    role.nameOf name ∉ knownNames := by
  intro known
  have last := lastCharacter_of_mem_knownNames known
  have final := lastCharacter_of_isFinalPackage isFinal
  cases role with
  | package =>
      rw [nameOf, id_eq] at last
      simp only [List.mem_cons, List.not_mem_nil, or_false] at last final
      rcases last with last | last | last <;> rw [last] at final <;> simp at final
  | metadata => simp [nameOf] at last
  | checksum => simp [nameOf] at last

/-- Only the package itself has the name of a package. -/
theorem isFinalPackage_nameOf
    {role : Role}
    {name : String}
    (isFinal : isFinalPackage (role.nameOf name) = true) :
    role = .package := by
  cases role with
  | package => rfl
  | metadata => simp [nameOf, not_isFinalPackage_metadataName] at isFinal
  | checksum => simp [nameOf, not_isFinalPackage_checksumName] at isFinal

end Role

/-- What a file of a package holds. -/
def Bundle.content (bundle : Bundle) : Role -> Bytes
  | .package => bundle.package
  | .metadata => bundle.metadata
  | .checksum => bundle.checksum

theorem ArtifactPath.holds_iff
    {package : ArtifactPath}
    {bundle : Bundle} :
    package.Holds bundle ↔ ∀ role : Role,
      package.directory.lookup (role.nameOf package.name) = some (.file (bundle.content role)) := by
  constructor
  · rintro ⟨isPackage, isMetadata, isChecksum⟩ (_ | _ | _)
    · exact isPackage
    · exact isMetadata
    · exact isChecksum
  · intro each
    exact ⟨each .package, each .metadata, each .checksum⟩

/-- What `artifact_name` accepts, and the name it returns. -/
theorem artifactName_cases
    {python : Python}
    {version distro arch state : Json}
    {name : String}
    (named : artifactName python version distro arch state = .ok name) :
    ∃ text, version = .string text ∧
      ((∃ linuxDistro linuxArch, (linuxDistro, linuxArch) ∈ linuxTargets ∧
          distro = .string linuxDistro ∧ arch = .string linuxArch ∧
          name = linuxName text linuxDistro linuxArch) ∨
        (distro = .string "darwin" ∧ arch = .string "arm64" ∧
          name = darwinName text (if state.text? = some "signed" then "-signed" else ""))) := by
  unfold artifactName at named
  cases version with
  | string text =>
      refine ⟨text, rfl, ?_⟩
      simp only at named
      split at named
      · split at named
        · rename_i linuxDistro linuxArch
          split at named
          · rename_i target
            split at named
            · exact .inl ⟨linuxDistro, linuxArch, target, rfl, rfl, (Except.ok.inj named).symm⟩
            · cases named
          · split at named
            · rename_i darwin
              rw [Prod.mk.injEq] at darwin
              rw [darwin.1.1, darwin.1.2]
              exact .inr ⟨rfl, rfl, (Except.ok.inj named).symm⟩
            · cases named
        · cases named
      · cases named
  | _ => simp at named

/-- A name for Linux does not end like a package for macOS. -/
theorem lastCharacter_linuxName (version distro arch : String) :
    lastCharacter (linuxName version distro arch) ≠ some 'g' := by
  rw [linuxName]
  split <;> rw [lastCharacter_append _ (by decide)] <;> decide

theorem lastCharacter_darwinName (version suffix : String) :
    lastCharacter (darwinName version suffix) = some 'g' := by
  rw [darwinName, lastCharacter_append _ (by decide)]
  decide

theorem macosName_eq_ok
    {python : Python}
    {version name : String}
    (named : macosName python version = .ok name) :
    name = darwinName version "" := by
  obtain ⟨text, same, ⟨distro, _, target, isDarwin, _⟩ | ⟨_, _, rfl⟩⟩ := artifactName_cases named
  · rw [← Json.string.inj isDarwin] at target
    simp [linuxTargets] at target
  · rw [Json.string.inj same]
    simp [Json.text?]

/-! ## Items of a release -/

/-- A package of a release: its name, its files and its record. -/
structure Item where
  name : String
  bundle : Bundle
  record : Json

namespace Item

variable {python : Python} {expected : Description} {version : String} {item : Item}

/-- The record of the item is accepted for its files. -/
def IsGenuine (python : Python) (expected : Description) (version : String) (item : Item) : Prop :=
  item.bundle.Genuine python item.name (some expected) (some version) true item.record

/-- The files of the item are in a directory. -/
def IsIn (directory : Directory) (item : Item) : Prop :=
  directory.lookup item.name = some (.file item.bundle.package) ∧
    directory.lookup (metadataName item.name) = some (.file item.bundle.metadata) ∧
    directory.lookup (checksumName item.name) = some (.file item.bundle.checksum)

theorem isIn_iff {directory : Directory} :
    item.IsIn directory ↔ ∀ role : Role,
      directory.lookup (role.nameOf item.name) = some (.file (item.bundle.content role)) :=
  @ArtifactPath.holds_iff ⟨directory, "", item.name⟩ item.bundle

/-- The line of the item in a checksum list. -/
def line (python : Python) (item : Item) : String :=
  checksumLine (python.sha256 item.bundle.package) item.name

/-- The entry of the item in the index. -/
def entry (python : Python) (item : Item) : Json :=
  .object [("artifact", .string item.name),
    ("metadata_sha256", .string (python.sha256 item.bundle.metadata))]

/-- What the first checks have seen: the record has the name and the version. -/
theorem IsGenuine.identity
    (genuine : item.IsGenuine python expected version) :
    item.record.field "artifact" = .string item.name ∧
      artifactName python (.string version) (item.record.field "distro")
        (item.record.field "arch") (item.record.field "state") = .ok item.name := by
  have checked := Bundle.Genuine.identity genuine
  simp only [checkIdentity, bind_eq_ok, refuse_eq_ok, exists_and_left, exists_const,
    Bool.or_eq_false_iff, Bool.not_eq_eq_eq_not, Bool.not_false, Json.equals_string,
    bne_eq_false_iff_eq] at checked
  obtain ⟨_, _, _, recordVersion, hasVersion, distro, hasDistro, arch, hasArch, state, hasState,
    requiredName, named, artifact, hasArtifact, ⟨rfl, same⟩, rfl⟩ := checked
  rw [Json.field_of_item hasArtifact, Json.field_of_item hasDistro, Json.field_of_item hasArch,
    Json.field_of_item hasState]
  exact ⟨rfl, same ▸ named⟩

theorem IsGenuine.digest
    (genuine : item.IsGenuine python expected version) :
    item.record.field "sha256" = .string (python.sha256 item.bundle.package) :=
  Json.field_of_item (Bundle.Genuine.digest genuine)

/-- A package for macOS is notarized. -/
theorem IsGenuine.notarized
    (genuine : item.IsGenuine python expected version)
    (macos : isMacos item.record = true) :
    item.record.field "state" = .string "notarized" := by
  have checked := Bundle.Genuine.origin genuine
  simp only [checkOrigin, if_true, bind_eq_ok, refuse_eq_ok, exists_and_left, exists_const]
    at checked
  obtain ⟨_, _, _, _, _, _, _, _, _, _, _, _, _, distro, hasDistro, state, hasState, allowed, _⟩ :=
    checked
  rw [isMacos, Json.field_of_item hasDistro] at macos
  rw [Json.field_of_item hasState]
  simpa [macos] using allowed

/-- Whether a package is for macOS can be read off its name. -/
theorem IsGenuine.isMacos_iff
    (genuine : item.IsGenuine python expected version) :
    isMacos item.record = true ↔ macosName python version = .ok item.name := by
  obtain ⟨_, named⟩ := genuine.identity
  constructor
  · intro macos
    have isDarwin : item.record.field "distro" = .string "darwin" := by
      simpa [isMacos] using macos
    rw [genuine.notarized macos, isDarwin] at named
    obtain ⟨_, _, ⟨distro, _, target, other, _⟩ | ⟨_, arch, _⟩⟩ := artifactName_cases named
    · rw [← Json.string.inj other] at target
      simp [linuxTargets] at target
    · rw [arch] at named
      exact named
  · intro isMacosName
    obtain ⟨_, _, ⟨_, _, _, _, _, isLinux⟩ | ⟨isDarwin, _⟩⟩ := artifactName_cases named
    · have last := lastCharacter_darwinName version ""
      rw [← macosName_eq_ok isMacosName, isLinux] at last
      exact absurd last (lastCharacter_linuxName _ _ _)
    · simp [isMacos, isDarwin]

/-- The files of an item are read from any directory that has them. -/
theorem readRecord_eq_ok
    {directory : Directory}
    {location name : String}
    {record : Json} :
    readRecord python { directory, location, name } (some expected) (some version) true =
        .ok record ↔
      ∃ item : Item, item.name = name ∧ item.record = record ∧ item.IsIn directory ∧
        item.IsGenuine python expected version := by
  rw [Release.readRecord_eq_ok]
  constructor
  · rintro ⟨bundle, holds, genuine⟩
    exact ⟨⟨name, bundle, record⟩, rfl, rfl, holds, genuine⟩
  · rintro ⟨item, rfl, rfl, holds, genuine⟩
    exact ⟨item.bundle, holds, genuine⟩

/-- The entry of an item in the index. -/
theorem indexEntry_eq_ok
    {directory : Directory}
    (location : String)
    (isIn : item.IsIn directory)
    (genuine : item.IsGenuine python expected version) :
    indexEntry python directory location item.record = .ok (item.entry python) := by
  have named : format python (.string item.name) = item.name := rfl
  have read : ArtifactPath.readBytes { directory, location, name := metadataName item.name } =
      .ok item.bundle.metadata := ArtifactPath.readBytes_of_file isIn.2.1
  simp [indexEntry, genuine.identity.1, named, ArtifactPath.metadataPath, ArtifactPath.digest,
    read, bind, Except.bind, entry]

end Item

/-- A list is mapped when every member is. -/
theorem mapM_eq_ok
    {f : α -> Except ε β}
    {values : List α}
    {results : List β} :
    values.mapM f = .ok results ↔ values.map f = results.map .ok := by
  induction values generalizing results with
  | nil => cases results <;> simp [pure, Except.pure]
  | cons value values inductionHypothesis =>
      rw [List.mapM_cons, bind_eq_ok]
      simp only [bind_eq_ok, inductionHypothesis, pure, Except.pure, Except.ok.injEq]
      cases results with
      | nil => simp
      | cons result results => simp

/-! ## Lists of items -/

section Items

variable {python : Python} {expected : Description} {version : String} {items : List Item}

/-- Genuine items that are in a directory. -/
def AllIn
    (python : Python)
    (expected : Description)
    (version : String)
    (directory : Directory)
    (items : List Item) :
    Prop :=
  ∀ item ∈ items, item.IsIn directory ∧ item.IsGenuine python expected version

theorem readRecords_eq_ok
    {directory : Directory}
    {location : String}
    {names : List String}
    {records : List Json} :
    (names.mapM fun name =>
        readRecord python { directory, location, name } (some expected) (some version) true) =
        .ok records ↔
      ∃ items : List Item, items.map Item.name = names ∧ items.map Item.record = records ∧
        AllIn python expected version directory items := by
  rw [mapM_eq_ok]
  induction names generalizing records with
  | nil =>
      cases records with
      | nil => simp [AllIn]
      | cons record records => simp
  | cons name names inductionHypothesis =>
      cases records with
      | nil => simp
      | cons record records =>
          rw [List.map_cons, List.map_cons, List.cons.injEq, inductionHypothesis,
            Item.readRecord_eq_ok]
          constructor
          · rintro ⟨⟨item, rfl, rfl, here⟩, items, rfl, rfl, rest⟩
            exact ⟨item :: items, rfl, rfl, List.forall_mem_cons.mpr ⟨here, rest⟩⟩
          · rintro ⟨items, sameNames, sameRecords, allIn⟩
            cases items with
            | nil => simp at sameNames
            | cons item items =>
                rw [List.map_cons, List.cons.injEq] at sameNames sameRecords
                have split := List.forall_mem_cons.mp allIn
                exact ⟨⟨item, sameNames.1, sameRecords.1, split.1⟩, items, sameNames.2,
                  sameRecords.2, split.2⟩

theorem mapM_indexEntry
    {directory : Directory}
    (location : String)
    (allIn : AllIn python expected version directory items) :
    (items.map Item.record).mapM (indexEntry python directory location) =
      .ok (items.map (Item.entry python)) := by
  rw [mapM_eq_ok, List.map_map, List.map_map]
  apply List.map_congr_left
  intro item member
  exact Item.indexEntry_eq_ok location (allIn item member).1 (allIn item member).2

/-- The items for one of the two platforms. -/
def platformItems (macos : Bool) (items : List Item) : List Item :=
  items.filter fun item => isMacos item.record == macos

/-- The checksum list of items. -/
def listText (python : Python) (items : List Item) : String :=
  String.join (items.map (Item.line python))

theorem platformRecords_map (macos : Bool) (items : List Item) :
    platformRecords macos (items.map Item.record) = (platformItems macos items).map Item.record :=
  List.filter_map

theorem checksums_eq_listText
    {directory : Directory}
    (allIn : AllIn python expected version directory items) :
    checksums python (items.map Item.record) = listText python items := by
  rw [checksums, listText, List.map_map]
  apply congrArg
  apply List.map_congr_left
  intro item member
  have genuine := (allIn item member).2
  simp only [Function.comp_apply, genuine.digest, genuine.identity.1]
  rfl

theorem AllIn.platformItems
    {directory : Directory}
    (allIn : AllIn python expected version directory items)
    (macos : Bool) :
    AllIn python expected version directory (platformItems macos items) :=
  fun item member => allIn item (List.mem_of_mem_filter member)

end Items

end Release
end MacosAuth
