import MacosAuth.Effect.Contract
import MacosAuth.Release.Verification

/-!
# Uploading a draft

`upload_draft` sends a verified release directory to a draft release on GitHub. It is a
program of calls: the commands of `gh`, whose answers GitHub decides and may decide otherwise
the next time, and what it learns from the directory. Whatever the answers are, a release is
edited or filled only when the query just before says that it is a draft, and created, as a
draft, only when the query just before says that there is none. What is sent are the files
that have been verified.
-/

namespace MacosAuth
namespace Release
namespace Upload

open Effect Effect.Program
open Protocol (bind_eq_ok)

/-! ## Calls -/

/-- The calls of the program. -/
inductive Call
  /-- `Path(args.notes_file).is_file()` and `Path(args.artifact_dir).is_dir()`. -/
  | inputsExist
  /-- `subprocess.run` for `gh` with these arguments. -/
  | gh (arguments : List String)
  /-- `artifacts.verify(args.artifact_dir, …)`. -/
  | verify (scope : Scope)
  /-- `artifacts.git(artifacts.ROOT, "rev-parse", "--verify", …)`. -/
  | revParse (revision : String)
  /-- `json.loads((directory / "BUILD-METADATA.txt").read_text())`. -/
  | readIndex

/-- A process that has ended. -/
structure CompletedProcess where
  /-- The return code is 0. -/
  succeeded : Bool
  stdout : String

abbrev Call.Answer : Call -> Type
  | .inputsExist => Bool
  | .gh _ => Except Exception CompletedProcess
  | .verify _ => Except Exception Unit
  | .revParse _ => Except Exception String
  | .readIndex => Except Exception Json

abbrev Routine := Program Call Call.Answer Exception

abbrev Past := List (Event Call Call.Answer)

/-- Go on with a value or end with an exception. -/
def lift (result : Except Exception α) : Routine α :=
  .done result

/-! ## The program -/

/-- The command line. -/
structure Arguments where
  repo : String
  tag : String
  target : String
  title : String
  notesFile : String
  artifactDir : String
  macosOnly : Bool

section Drafts

variable (python : Python) (join : String -> String -> String) (args : Arguments)

namespace Arguments

/-- The query for the draft state. -/
def viewCommand : List String :=
  ["release", "view", args.tag, "--repo", args.repo, "--json", "isDraft"]

/-- The query for all releases. -/
def listCommand : List String :=
  ["api", "--paginate", "--slurp", s!"repos/{args.repo}/releases?per_page=100"]

/-- `common` -/
def common (target : String) : List String :=
  ["--repo", args.repo, "--target", target, "--title", args.title, "--notes-file", args.notesFile]

def editCommand (target : String) : List String :=
  ["release", "edit", args.tag] ++ args.common target

def createCommand (target : String) : List String :=
  ["release", "create", args.tag, "--draft"] ++ args.common target

def uploadCommand (paths : List String) : List String :=
  ["release", "upload", args.tag] ++ paths ++ ["--repo", args.repo, "--clobber"]

/-- The last command, for the person at the terminal. -/
def showCommand : List String :=
  ["release", "view", args.tag, "--repo", args.repo]

/-- `args.tag[1:]` -/
def version : String :=
  String.ofList (args.tag.toList.drop 1)

/-- What `verify` is asked for. -/
def scope : Scope where
  version := args.version
  revision := args.target
  requireMacos := true
  platformChecks := true
  macosOnly := args.macosOnly

end Arguments

/-- The draft state in the answer to the view. -/
def draftState (stdout : String) : Except Exception Bool :=
  match python.loads stdout with
  | none => .error .jsonError
  | some (.object fields) =>
      match fields.lookup "isDraft" with
      | some (.bool value) => .ok value
      | _ => .error (.valueError "GitHub returned an invalid isDraft value")
  | some _ => .error (.valueError "GitHub returned an invalid draft-state response")

/-- The check of one entry of the listing. -/
def checkRelease (release : Json) : Except Exception Unit :=
  match release with
  | .object fields =>
      match fields.lookup "tag_name" with
      | some (.string name) =>
          refuse (name == args.tag)
            (.valueError "release exists but its draft-state query failed; refusing mutation")
      | _ => .error (.valueError "invalid GitHub release listing entry")
  | _ => .error (.valueError "invalid GitHub release listing entry")

/-- `isinstance(page, list)`, and the list. -/
def pageEntries : Json -> Option (List Json)
  | .array entries => some entries
  | _ => none

/-- The pages of the listing. -/
def listingPages (stdout : String) : Except Exception (List (List Json)) :=
  match python.loads stdout with
  | none => .error .jsonError
  | some (.array pages) =>
      match pages.mapM pageEntries with
      | some (page :: rest) => .ok (page :: rest)
      | _ => .error (.valueError "invalid GitHub release listing")
  | some _ => .error (.valueError "invalid GitHub release listing")

/-- The check that the listing does not have the tag. -/
def checkListing (stdout : String) : Except Exception Unit := do
  let pages ← listingPages python stdout
  pages.flatten.forM (checkRelease args)

/-- Run `gh` and return its answer. -/
def gh (arguments : List String) : Routine CompletedProcess := do
  let answer ← perform (.gh arguments)
  lift answer

/-- Run `gh` with `check=True`. -/
def ghChecked (arguments : List String) : Routine Unit := do
  let completed ← gh arguments
  lift (refuse (!completed.succeeded) .subprocessError)

/-- `query_draft` -/
def queryDraft : Routine (Option Bool) := do
  let result ← gh args.viewCommand
  if result.succeeded then
    let value ← lift (draftState python result.stdout)
    pure (some value)
  else
    let listing ← gh args.listCommand
    lift (refuse (!listing.succeeded)
      (.valueError "cannot determine release state; GitHub query failed (no mutations made)"))
    lift (checkListing python args listing.stdout)
    pure none

/-- `require_draft` -/
def requireDraft : Routine Unit := do
  let state ← queryDraft python args
  lift (refuse (state != some true)
    (.valueError "refusing to modify a published or missing release"))

/-- The values over which a `for` loop runs. -/
def iterate : Json -> Except Exception (List Json)
  | .array values => .ok values
  | .object fields => .ok (fields.map fun field => .string field.1)
  | .string text => .ok (text.toList.map fun character => .string character.toString)
  | _ => .error .typeError

/-- The paths of the package of an entry of the index and of its sidecars. The argument `join`
is `str(Path(directory) / name)`. -/
def entryPaths (entry : Json) : Except Exception (List String) := do
  let artifact ← entry.item "artifact"
  match artifact with
  | .string name =>
      let package := join args.artifactDir name
      .ok [package, metadataName package, checksumName package]
  | _ => .error .typeError

/-- The names of the lists that are sent. -/
def listNames (macosOnly : Bool) : List String :=
  ["SHA256SUMS-darwin-arm64", "BUILD-METADATA.txt", "BUILD-METADATA-darwin-arm64.txt"] ++
    if macosOnly then [] else ["SHA256SUMS"]

/-- The paths that are sent for an index. -/
def uploadPaths (index : Json) : Except Exception (List String) := do
  let artifacts ← index.item "artifacts"
  let entries ← iterate artifacts
  let packages ← entries.mapM (entryPaths join args)
  .ok (packages.flatten ++ (listNames args.macosOnly).map (join args.artifactDir))

/-- Edit the draft that is there, or create one. -/
def prepareDraft (state : Option Bool) (target : String) : Routine Unit :=
  if state = some true then do
    requireDraft python args
    ghChecked (args.editCommand target)
  else do
    let again ← queryDraft python args
    lift (refuse (again != none)
      (.valueError "release appeared during validation; refusing mutation"))
    ghChecked (args.createCommand target)

/-- Send the files of the index. -/
def sendFiles : Routine Unit := do
  requireDraft python args
  let read ← perform .readIndex
  let index ← lift read
  let paths ← lift (uploadPaths join args index)
  ghChecked (args.uploadCommand paths)
  ghChecked args.showCommand

/-- `main` -/
def main : Routine Unit := do
  let inputsExist ← perform .inputsExist
  lift (refuse (!inputsExist) (.valueError "notes file and artifact directory must exist"))
  lift (refuse (args.tag.toList.head? != some 'v') (.valueError "release tag must be v<VERSION>"))
  let state ← queryDraft python args
  lift (refuse (state == some false)
    (.valueError "refusing to modify a published release; use a new version/tag"))
  let verified ← perform (.verify args.scope)
  lift verified
  let parsed ← perform (.revParse (args.target ++ "^\x7bcommit\x7d"))
  let target ← lift parsed
  prepareDraft python args state target
  sendFiles python join args

/-! ## What the calls are guarded by -/

/-- Is the call a command of `gh`? -/
def Call.isGh : Call -> Bool
  | .gh _ => true
  | _ => false

/-- The commands of `gh` so far, with their answers. -/
def commands (past : Past) : Past :=
  past.filter fun event => event.call.isGh

/-- The last command was the query for the draft state, and its answer has this state. -/
def ReportedState (past : Past) (state : Bool) : Prop :=
  ∃ earlier stdout fields,
    commands past = earlier ++ [⟨.gh args.viewCommand, .ok ⟨true, stdout⟩⟩] ∧
      python.loads stdout = some (.object fields) ∧
      fields.lookup "isDraft" = some (.bool state)

/-- The entry of the listing is for another tag. -/
def IsOther (release : Json) : Prop :=
  ∃ fields name, release = .object fields ∧ fields.lookup "tag_name" = some (.string name) ∧
    name ≠ args.tag

/-- The last commands were a query for the draft state that failed and a listing of all
releases that succeeded, has a page, and does not have the tag. -/
def ReportedAbsent (past : Past) : Prop :=
  ∃ earlier viewed listed pages,
    commands past = earlier ++ [⟨.gh args.viewCommand, .ok ⟨false, viewed⟩⟩,
      ⟨.gh args.listCommand, .ok ⟨true, listed⟩⟩] ∧
      python.loads listed = some (.array pages) ∧ pages ≠ [] ∧
      ∀ page ∈ pages, ∃ releases, page = .array releases ∧ ∀ release ∈ releases, IsOther args release

/-- The directory has been verified. -/
def IsVerified (past : Past) : Prop :=
  ⟨.verify args.scope, .ok ()⟩ ∈ past

/-- The answer is the one that a directory gives. -/
def FromDirectory
    (host : Host)
    (platform : Platform)
    (directory : Directory)
    (event : Event Call Call.Answer) :
    Prop :=
  match event with
  | ⟨.verify scope, answer⟩ =>
      answer = Release.verify python host scope platform directory args.artifactDir
  | ⟨.readIndex, answer⟩ =>
      answer = ArtifactPath.readJson python
        { directory, location := args.artifactDir, name := "BUILD-METADATA.txt" }
  | _ => True

/-- The index of the directory lists these packages. -/
def ListsPackages (directory : Directory) (names : List String) : Prop :=
  ∃ index entries,
    ArtifactPath.readJson python
      { directory, location := args.artifactDir, name := "BUILD-METADATA.txt" } = .ok index ∧
    index.item "artifacts" = .ok (.array entries) ∧
    entries.mapM (fun entry => entry.item "artifact") = .ok (names.map Json.string)

/-- The lists that the verification of the directory reads: the index, and for each platform
with a package its checksum list and, for macOS, the copy of the index. -/
def IsVerifiedList (directory : Directory) (name : String) : Prop :=
  name = "BUILD-METADATA.txt" ∨
    (name = "SHA256SUMS" ∧
      ∃ package ∈ packageFiles directory, macosName python args.version ≠ .ok package) ∨
    (name ∈ ["SHA256SUMS-darwin-arm64", "BUILD-METADATA-darwin-arm64.txt"] ∧
      ∃ package ∈ packageFiles directory, macosName python args.version = .ok package)

/-- The paths are those of the packages that the verified index lists, of their sidecars, and
of the lists that were verified. -/
def AreVerifiedFiles (directory : Directory) (paths : List String) : Prop :=
  ∃ names, ListsPackages python args directory names ∧ names = packageFiles directory ∧
    ∀ path, path ∈ paths ↔
      (∃ name ∈ names, path = join args.artifactDir name ∨
        path = metadataName (join args.artifactDir name) ∨
        path = checksumName (join args.artifactDir name)) ∨
      ∃ name, IsVerifiedList python args directory name ∧ path = join args.artifactDir name

/-- When a command of `gh` may be used. What is sent are the verified files of the directory, if
it did not change between its verification and the reading of its index. -/
inductive Guarded (past : Past) : List String -> Prop
  | view : Guarded past args.viewCommand
  | list : Guarded past args.listCommand
  | show : Guarded past args.showCommand
  | edit
      (target : String)
      (isDraft : ReportedState python args past true)
      (verified : IsVerified args past) :
      Guarded past (args.editCommand target)
  | create
      (target : String)
      (isAbsent : ReportedAbsent python args past)
      (verified : IsVerified args past) :
      Guarded past (args.createCommand target)
  | upload
      (paths : List String)
      (isDraft : ReportedState python args past true)
      (verified : IsVerified args past)
      (areVerified : ∀ host platform directory,
        (∀ event ∈ past, FromDirectory python args host platform directory event) ->
          AreVerifiedFiles python join args directory paths) :
      Guarded past (args.uploadCommand paths)

/-- A call other than a command of `gh` may be made at any time. -/
def Allowed (past : Past) : Call -> Prop
  | .gh arguments => Guarded python join args past arguments
  | _ => True

/-- The contract of the program. Nothing is assumed of the answers. -/
def guard : Contract Call Call.Answer where
  relies _ _ := True
  allows past call := Allowed python join args past call
  givesUp _ := False

/-! ## The queries -/

variable {python join args} {host : Host} {platform : Platform} {directory : Directory}
  {past : Past}

theorem commands_append (event : Event Call Call.Answer) :
    commands (past ++ [event]) = commands past ++ if event.call.isGh then [event] else [] := by
  rw [commands, List.filter_append, List.filter_singleton]
  cases event.call.isGh <;> rfl

/-- What is reported is reported until the next command. -/
theorem ReportedState.of_commands
    {later : Past}
    {state : Bool}
    (reported : ReportedState python args past state)
    (same : commands later = commands past) :
    ReportedState python args later state := by
  rwa [ReportedState, same]

/-- The state that the last commands have reported. -/
def Reported (python : Python) (args : Arguments) (past : Past) : Option Bool -> Prop
  | some state => ReportedState python args past state
  | none => ReportedAbsent python args past

theorem draftState_eq_ok {stdout : String} {state : Bool} :
    draftState python stdout = .ok state ↔
      ∃ fields, python.loads stdout = some (.object fields) ∧
        fields.lookup "isDraft" = some (.bool state) := by
  unfold draftState
  split
  · rename_i none
    simp [none]
  · rename_i fields found
    rw [found]
    split
    · rename_i value looked
      simp [looked]
    · rename_i noBool
      constructor
      · intro impossible
        cases impossible
      · rintro ⟨_, ⟨⟩, looked⟩
        exact absurd looked (noBool state)
  · rename_i value noObject found
    rw [found]
    constructor
    · intro impossible
      cases impossible
    · rintro ⟨fields, ⟨⟩, _⟩
      exact absurd rfl (noObject fields)

theorem checkRelease_eq_ok {release : Json} :
    checkRelease args release = .ok () ↔ IsOther args release := by
  unfold checkRelease IsOther
  constructor
  · intro checked
    split at checked
    · rename_i fields
      split at checked
      · rename_i name looked
        rw [refuse_eq_ok, beq_eq_false_iff_ne] at checked
        exact ⟨fields, name, rfl, looked, checked⟩
      · cases checked
    · cases checked
  · rintro ⟨fields, name, rfl, looked, other⟩
    simp [looked, other, refuse]

theorem mapM_pageEntries {pages : List Json} {entries : List (List Json)} :
    pages.mapM pageEntries = some entries ↔ pages = entries.map Json.array := by
  induction pages generalizing entries with
  | nil => cases entries <;> simp
  | cons page pages inductionHypothesis =>
      have isPage (releases : List Json) :
          pageEntries page = some releases ↔ page = .array releases := by
        cases page <;> simp [pageEntries]
      rw [List.mapM_cons]
      simp only [Option.bind_eq_bind, Option.bind_eq_some_iff, isPage, inductionHypothesis,
        Option.pure_def, Option.some.injEq]
      constructor
      · rintro ⟨first, rfl, rest, rfl, rfl⟩
        rfl
      · intro same
        cases entries with
        | nil => cases same
        | cons first rest =>
            obtain ⟨rfl, rfl⟩ := List.cons.inj same
            exact ⟨first, rfl, rest, rfl, rfl⟩

theorem forM_checkRelease {releases : List Json} :
    releases.forM (checkRelease args) = .ok () ↔ ∀ release ∈ releases, IsOther args release := by
  induction releases with
  | nil => simp [List.forM_eq_forM, pure, Except.pure]
  | cons release releases inductionHypothesis =>
      rw [List.forall_mem_cons, ← inductionHypothesis, ← checkRelease_eq_ok]
      change (checkRelease args release >>= fun _ => releases.forM (checkRelease args)) = _ ↔ _
      rw [bind_eq_ok]
      exact ⟨fun ⟨(), first, rest⟩ => ⟨first, rest⟩, fun ⟨first, rest⟩ => ⟨(), first, rest⟩⟩

/-- The listing has a page, and no entry with the tag. -/
theorem checkListing_eq_ok {stdout : String} (checked : checkListing python args stdout = .ok ()) :
    ∃ pages, python.loads stdout = some (.array pages) ∧ pages ≠ [] ∧
      ∀ page ∈ pages, ∃ releases, page = .array releases ∧
        ∀ release ∈ releases, IsOther args release := by
  rw [checkListing, bind_eq_ok] at checked
  obtain ⟨entries, listed, each⟩ := checked
  unfold listingPages at listed
  split at listed
  · cases listed
  · rename_i pages found
    split at listed
    · rename_i first rest mapped
      obtain rfl := Except.ok.inj listed
      have isPages := mapM_pageEntries.mp mapped
      refine ⟨pages, found, by simp [isPages], ?_⟩
      intro page member
      rw [isPages, List.mem_map] at member
      obtain ⟨releases, isPage, rfl⟩ := member
      refine ⟨releases, rfl, fun release isRelease => ?_⟩
      exact forM_checkRelease.mp each release
        (List.mem_flatten.mpr ⟨releases, isPage, isRelease⟩)
    · cases listed
  · cases listed

section Meets

variable {contract : Contract Call Call.Answer}

/-- A result is handed on, or its exception ends the program. -/
theorem meets_lift_bind
    {result : Except Exception α}
    {next : α -> Routine β}
    {post : Past -> Except Exception β -> Prop}
    (continues : ∀ value, result = .ok value -> (next value).Meets contract past post)
    (fails : ∀ error, post past (.error error)) :
    (lift result >>= next).Meets contract past post := by
  cases result with
  | ok value => exact continues value rfl
  | error error => exact fails error

end Meets

/-- A command of `gh` that may be used is used, with any answer. -/
theorem meets_gh
    {arguments : List String}
    (guarded : Guarded python join args past arguments) :
    (gh arguments).Meets (guard python join args) past
      fun later answer => later = past ++ [⟨.gh arguments, answer⟩] :=
  ⟨guarded, fun _ _ => rfl⟩

/-- A checked command leaves its call behind. -/
theorem meets_ghChecked
    {arguments : List String}
    (guarded : Guarded python join args past arguments) :
    (ghChecked arguments).Meets (guard python join args) past
      fun later _ => past <+: later := by
  refine (meets_gh guarded).bind ?_ ?_
  · rintro later completed rfl
    exact List.prefix_append _ _
  · rintro later error rfl
    exact List.prefix_append _ _

/-- The query leaves its report behind. -/
theorem meets_queryDraft :
    (queryDraft python args).Meets (guard python join args) past
      fun later result => past <+: later ∧
        ∀ state, result = .ok state -> Reported python args later state := by
  refine (meets_gh .view).bind ?_ ?_
  · rintro later ⟨succeeded, stdout⟩ rfl
    cases succeeded with
    | true =>
        refine meets_lift_bind ?_ fun error => ⟨List.prefix_append _ _, by simp⟩
        intro state hasState
        obtain ⟨fields, loaded, looked⟩ := draftState_eq_ok.mp hasState
        refine ⟨List.prefix_append _ _, ?_⟩
        rintro _ ⟨⟩
        exact ⟨commands past, stdout, fields, commands_append _, loaded, looked⟩
    | false =>
        refine (meets_gh .list).bind ?_ ?_
        · rintro later ⟨succeeded, listed⟩ rfl
          have extended : past <+: past ++ [⟨.gh args.viewCommand, .ok ⟨false, stdout⟩⟩] ++
              [⟨.gh args.listCommand, .ok ⟨succeeded, listed⟩⟩] := by
            simp
          refine meets_lift_bind ?_ fun error => ⟨extended, by simp⟩
          intro _ hasSucceeded
          refine meets_lift_bind ?_ fun error => ⟨extended, by simp⟩
          intro _ checked
          refine ⟨extended, ?_⟩
          rintro _ ⟨⟩
          obtain ⟨pages, loaded, nonempty, others⟩ := checkListing_eq_ok checked
          have isOk : succeeded = true := by
            simpa using hasSucceeded
          subst isOk
          refine ⟨commands past, stdout, listed, pages, ?_, loaded, nonempty, others⟩
          rw [commands_append, commands_append]
          simp [Call.isGh]
        · rintro later error rfl
          exact ⟨by simp, by simp⟩
  · rintro later error rfl
    exact ⟨List.prefix_append _ _, by simp⟩

/-- A draft is required. -/
theorem meets_requireDraft :
    (requireDraft python args).Meets (guard python join args) past
      fun later result => past <+: later ∧
        (result = .ok () -> ReportedState python args later true) := by
  refine meets_queryDraft.bind ?_ ?_
  · rintro later state ⟨extended, reported⟩
    refine ⟨extended, fun isDraft => ?_⟩
    have isSome : state = some true := by
      simpa using isDraft
    exact reported (some true) (congrArg Except.ok isSome)
  · rintro later error ⟨extended, _⟩
    exact ⟨extended, by simp⟩

/-! ## The files that are sent -/

/-- The entries of a verified index are sent as the packages of the directory. -/
theorem mapM_entryPaths (items : List Item) :
    (items.map (Item.entry python)).mapM (entryPaths join args) =
      .ok (items.map fun item => [join args.artifactDir item.name,
        metadataName (join args.artifactDir item.name),
        checksumName (join args.artifactDir item.name)]) := by
  rw [mapM_eq_ok, List.map_map, List.map_map]
  rfl

theorem item_of_get
    {value found : Json}
    {key : String}
    (got : value.get key = .ok found)
    (notNull : found ≠ .null) :
    value.item key = .ok found := by
  cases value with
  | object fields =>
      rw [Json.get, Json.getOr, Except.ok.injEq] at got
      rw [Json.item]
      cases looked : fields.lookup key with
      | none =>
          rw [looked, Option.getD_none] at got
          exact absurd got.symm notNull
      | some other =>
          rw [looked, Option.getD_some] at got
          rw [got]
  | _ => simp [Json.get, Json.getOr] at got

/-- There are packages for Linux with names of their own. -/
theorem exists_linuxName
    {version : String}
    {linux : List String}
    (named : linuxNames python version = .ok linux) :
    ∃ name ∈ linux, macosName python version ≠ .ok name := by
  rw [linuxNames, mapM_eq_ok, linuxTargets, List.map_cons] at named
  cases linux with
  | nil => cases named
  | cons name linux =>
      refine ⟨name, List.mem_cons_self, fun isMacosName => ?_⟩
      obtain ⟨text, _, ⟨distro, arch, _, _, _, rfl⟩ | ⟨isDarwin, _⟩⟩ :=
        artifactName_cases (List.cons.inj named).1
      · have last := lastCharacter_linuxName text distro arch
        rw [macosName_eq_ok isMacosName, lastCharacter_darwinName] at last
        exact last rfl
      · simp at isDarwin

/-- Where the macOS package is required, it comes after those for Linux. -/
theorem requiredNames_eq_ok
    {required : List String}
    {macos : String}
    (named : macosName python args.version = .ok macos) :
    requiredNames python args.scope = .ok required ↔
      ∃ linux, (args.macosOnly = true -> linux = []) ∧
        (args.macosOnly = false -> linuxNames python args.version = .ok linux) ∧
        required = linux ++ [macos] := by
  unfold requiredNames
  simp only [Arguments.scope, named]
  cases args.macosOnly with
  | true => simp [Bind.bind, Except.bind, eq_comm]
  | false =>
      cases linuxNames python args.version <;> simp [Bind.bind, Except.bind, eq_comm]

section Sent

variable {expected : Description} {required : List String} {macos : String} {items : List Item}
  {index : Json}

/-- The macOS package is required, and it is there. -/
theorem macos_mem_packageFiles
    (verified : Verified python host args.scope platform directory args.artifactDir expected
      required macos items index) :
    macos ∈ packageFiles directory := by
  obtain ⟨linux, _, _, rfl⟩ := (requiredNames_eq_ok verified.macosName).mp verified.requiredNames
  exact verified.complete macos (by simp)

/-- Linux packages are there unless the verification was for macOS only. -/
theorem exists_linux_package_iff
    (verified : Verified python host args.scope platform directory args.artifactDir expected
      required macos items index) :
    (∃ package ∈ packageFiles directory, macosName python args.version ≠ .ok package) ↔
      args.macosOnly = false := by
  obtain ⟨linux, noLinux, someLinux, rfl⟩ :=
    (requiredNames_eq_ok verified.macosName).mp verified.requiredNames
  cases only : args.macosOnly with
  | true =>
      obtain rfl := noLinux only
      refine iff_of_false ?_ (by simp)
      rintro ⟨package, member, other⟩
      have isMacos : package = macos := by
        simpa using verified.nothingElse package member
      exact other (isMacos ▸ verified.macosName)
  | false =>
      obtain ⟨name, isLinux, other⟩ := exists_linuxName (someLinux only)
      have isThere := verified.complete name (List.mem_append_left _ isLinux)
      exact iff_of_true ⟨name, isThere, other⟩ rfl

/-- The lists that are sent are those that were verified. -/
theorem isVerifiedList_iff
    (verified : Verified python host args.scope platform directory args.artifactDir expected
      required macos items index)
    (name : String) :
    IsVerifiedList python args directory name ↔ name ∈ listNames args.macosOnly := by
  have hasMacos : ∃ package ∈ packageFiles directory, macosName python args.version = .ok package :=
    ⟨macos, macos_mem_packageFiles verified, verified.macosName⟩
  rw [IsVerifiedList, exists_linux_package_iff verified]
  simp only [hasMacos, and_true, listNames, List.mem_append, List.mem_cons, List.not_mem_nil,
    or_false]
  cases args.macosOnly with
  | true =>
      rw [if_pos rfl, and_iff_right_of_imp (fun impossible => nomatch impossible)]
      grind
  | false =>
      rw [if_neg Bool.false_ne_true, List.mem_singleton]
      grind

theorem packageFiles_erase
    {name : String}
    (notPackage : name ∉ packageFiles directory) :
    packageFiles (directory.erase name) = packageFiles directory := by
  unfold packageFiles at notPackage ⊢
  rw [sorted, List.mem_insertionSort, List.mem_filter] at notPackage
  rw [AList.keys_erase, directory.keys_nodup.erase_eq_filter, List.filter_filter]
  refine congrArg sorted (List.filter_congr fun other member => ?_)
  grind

/-- A macOS-only verification finds no Linux packages. -/
theorem platformItems_of_macosOnly
    (verified : Verified python host args.scope platform directory args.artifactDir expected
      required macos items index)
    (only : args.macosOnly = true) :
    platformItems false items = [] := by
  refine List.filter_eq_nil_iff.mpr fun item member isLinux => ?_
  have listed : item.name ∈ packageFiles directory :=
    verified.names ▸ List.mem_map_of_mem member
  have other : macosName python args.version ≠ .ok item.name := fun named => by
    simp [(verified.allIn item member).2.isMacos_iff.mpr named] at isLinux
  have both := (exists_linux_package_iff verified).mp ⟨_, listed, other⟩
  rw [only] at both
  cases both

/-- The verification reads each of the lists. -/
theorem lookup_of_verified
    {name : String}
    (verified : Verified python host args.scope platform directory args.artifactDir expected
      required macos items index)
    (listed : name ∈ listNames args.macosOnly) :
    directory.lookup name ≠ none := by
  intro missing
  have macosThere := macos_mem_packageFiles verified
  simp only [listNames, List.mem_append, List.mem_cons, List.not_mem_nil, or_false] at listed
  rcases listed with (rfl | rfl | rfl) | inLinux
  · have nonempty := platformItems_ne_nil verified.allIn (verified.names ▸ macosThere) true
      (by simpa [Arguments.scope] using verified.macosName)
    exact ArtifactPath.readText_ne_ok_of_missing missing _
      (readText_of_checkList (verified.allIn.platformItems true) nonempty verified.macosList)
  · exact ArtifactPath.readJson_ne_ok_of_missing missing _ verified.read
  · have checked := verified.macosPackage macosThere
    rw [checkMacos, bind_eq_ok] at checked
    obtain ⟨copy, read, _⟩ := checked
    exact ArtifactPath.readJson_ne_ok_of_missing missing _ read
  · cases only : args.macosOnly with
    | true => simp [only] at inLinux
    | false =>
        obtain rfl : name = "SHA256SUMS" := by simpa [only] using inLinux
        obtain ⟨package, isThere, other⟩ := (exists_linux_package_iff verified).mpr only
        have nonempty := platformItems_ne_nil verified.allIn (verified.names ▸ isThere) false
          (by simpa [Arguments.scope] using other)
        exact ArtifactPath.readText_ne_ok_of_missing missing _
          (readText_of_checkList (verified.allIn.platformItems false) nonempty verified.linuxList)

/-- The verification reads nothing but the lists and the files of the packages. -/
theorem verified_without
    {name : String}
    (verified : Verified python host args.scope platform directory args.artifactDir expected
      required macos items index)
    (unlisted : name ∉ listNames args.macosOnly)
    (noPackageFile : ∀ package ∈ packageFiles directory,
      package ≠ name ∧ metadataName package ≠ name ∧ checksumName package ≠ name) :
    Verified python host args.scope platform (directory.erase name) args.artifactDir expected
      required macos items index := by
  have kept {other : String} (different : other ≠ name) :
      (directory.erase name).lookup other = directory.lookup other :=
    AList.lookup_erase_ne different
  have samePackages : packageFiles (directory.erase name) = packageFiles directory :=
    packageFiles_erase fun isThere => (noPackageFile name isThere).1 rfl
  simp only [listNames, List.mem_append, List.mem_cons, List.not_mem_nil, or_false, not_or]
    at unlisted
  obtain ⟨⟨notMacosList, notIndex, notCopy⟩, notLinuxList⟩ := unlisted
  exact
    { verified with
      complete := samePackages ▸ verified.complete
      nothingElse := samePackages ▸ verified.nothingElse
      names := samePackages ▸ verified.names
      allIn := by
        intro item member
        obtain ⟨⟨package, metadata, checksum⟩, genuine⟩ := verified.allIn item member
        obtain ⟨notPackage, notMetadata, notChecksum⟩ :=
          noPackageFile item.name (verified.names ▸ List.mem_map_of_mem member)
        exact ⟨⟨(kept notPackage).trans package, (kept notMetadata).trans metadata,
          (kept notChecksum).trans checksum⟩, genuine⟩
      read := (ArtifactPath.readJson_congr (kept (Ne.symm notIndex))).trans verified.read
      linuxList := by
        cases only : args.macosOnly with
        | true =>
            rw [platformItems_of_macosOnly verified only]
            rfl
        | false =>
            have notList : name ≠ "SHA256SUMS" := by simpa [only] using notLinuxList
            rw [checkList, ArtifactPath.readText_congr (kept (Ne.symm notList)), ← checkList]
            exact verified.linuxList
      macosList := by
        rw [checkList, ArtifactPath.readText_congr (kept (Ne.symm notMacosList)), ← checkList]
        exact verified.macosList
      macosPackage := by
        rw [checkMacos, ArtifactPath.readJson_congr (kept (Ne.symm notCopy)), ← checkMacos,
          samePackages]
        exact verified.macosPackage }

/-- The lists that the verification of the directory reads are those without which it fails. -/
theorem isVerifiedList_iff_verify_fails
    {name : String}
    (verifies : Release.verify python host args.scope platform directory args.artifactDir = .ok ())
    (noPackageFile : ∀ package ∈ packageFiles directory,
      package ≠ name ∧ metadataName package ≠ name ∧ checksumName package ≠ name) :
    IsVerifiedList python args directory name ↔
      Release.verify python host args.scope platform (directory.erase name) args.artifactDir ≠
        .ok () := by
  obtain ⟨expected, required, macos, items, index, verified⟩ := verify_eq_ok.mp verifies
  rw [isVerifiedList_iff verified]
  constructor
  · intro listed verifiesWithout
    obtain ⟨_, _, _, _, _, without⟩ := verify_eq_ok.mp verifiesWithout
    exact lookup_of_verified without listed (AList.lookup_erase name directory)
  · intro fails
    by_contra unlisted
    exact fails (verify_eq_ok.mpr
      ⟨_, _, _, _, _, verified_without verified unlisted noPackageFile⟩)

/-- For a verified directory the verified files are sent. -/
theorem areVerifiedFiles
    {paths : List String}
    (verifies : Release.verify python host args.scope platform directory args.artifactDir = .ok ())
    (read : ArtifactPath.readJson python
      { directory, location := args.artifactDir, name := "BUILD-METADATA.txt" } = .ok index)
    (sends : uploadPaths join args index = .ok paths) :
    AreVerifiedFiles python join args directory paths := by
  obtain ⟨expected, required, macos, items, index', verified⟩ := verify_eq_ok.mp verifies
  have sameIndex : index' = index := by
    have readAgain := verified.read
    rw [read, Except.ok.injEq] at readAgain
    exact readAgain.symm
  subst sameIndex
  have artifacts := item_of_get (artifacts_of_indexMatches verified.matching) (by simp)
  have entryNames : (items.map (Item.entry python)).mapM (fun entry => entry.item "artifact") =
      .ok ((items.map Item.name).map Json.string) := by
    rw [mapM_eq_ok, List.map_map, List.map_map, List.map_map]
    rfl
  refine ⟨items.map Item.name, ⟨index', _, read, artifacts, entryNames⟩, verified.names, ?_⟩
  simp only [uploadPaths, artifacts, iterate, mapM_entryPaths, Bind.bind, Except.bind,
    Except.ok.injEq] at sends
  intro path
  rw [← sends, List.mem_append]
  refine or_congr ?_ ?_
  · simp [List.mem_flatten]
  · simp only [isVerifiedList_iff verified, List.mem_map]
    exact exists_congr fun name => and_congr_right fun _ => eq_comm

end Sent

/-! ## The whole program -/

theorem IsVerified.mono
    {later : Past}
    (verified : IsVerified args past)
    (extended : past <+: later) :
    IsVerified args later :=
  extended.subset verified

/-- The release is edited or created under its guard. -/
theorem meets_prepareDraft
    {state : Option Bool}
    (target : String)
    (verified : IsVerified args past) :
    (prepareDraft python args state target).Meets
      (guard python join args) past fun later _ => past <+: later := by
  unfold prepareDraft
  split
  · refine meets_requireDraft.bind ?_ ?_
    · rintro later _ ⟨extended, reported⟩
      refine (meets_ghChecked (.edit target (reported rfl) (verified.mono extended))).mono ?_
      exact fun _ _ further => extended.trans further
    · exact fun later error left => left.1
  · refine meets_queryDraft.bind ?_ ?_
    · rintro later again ⟨extended, reported⟩
      refine meets_lift_bind ?_ fun _ => extended
      intro _ isAbsent
      have isNone : again = none := by
        simpa using isAbsent
      subst isNone
      refine (meets_ghChecked (.create target (reported none rfl) (verified.mono extended))).mono ?_
      exact fun _ _ further => extended.trans further
    · exact fun later error left => left.1

/-- The files are sent under their guard. -/
theorem meets_sendFiles (verified : IsVerified args past) :
    (sendFiles python join args).Meets (guard python join args) past
      fun _ _ => True := by
  refine meets_requireDraft.bind ?_ fun _ _ _ => trivial
  rintro later _ ⟨extended, reported⟩
  refine (meets_perform_bind _ _ _).mpr ⟨trivial, ?_⟩
  intro answer _
  refine meets_lift_bind ?_ fun _ => trivial
  intro index isRead
  refine meets_lift_bind ?_ fun _ => trivial
  intro paths sends
  subst isRead
  have isDraft : ReportedState python args (later ++ [⟨.readIndex, .ok index⟩]) true := by
    refine (reported rfl).of_commands ?_
    rw [commands_append]
    exact List.append_nil _
  have isVerified : IsVerified args (later ++ [⟨.readIndex, .ok index⟩]) :=
    verified.mono (extended.trans (List.prefix_append _ _))
  have areVerified : ∀ host platform directory,
      (∀ event ∈ later ++ [⟨.readIndex, .ok index⟩],
        FromDirectory python args host platform directory event) ->
        AreVerifiedFiles python join args directory paths := by
    intro host platform directory unchanged
    have verifies := unchanged _ isVerified
    have read := unchanged ⟨.readIndex, .ok index⟩ (by simp)
    exact areVerifiedFiles (Eq.symm verifies) (Eq.symm read) sends
  refine (meets_ghChecked (.upload paths isDraft isVerified areVerified)).bind ?_
    fun _ _ _ => trivial
  intro last _ _
  exact (meets_ghChecked .show).mono fun _ _ _ => trivial

theorem meets_main :
    (main python join args).Meets (guard python join args) []
      fun _ _ => True := by
  refine (meets_perform_bind _ _ _).mpr ⟨trivial, ?_⟩
  intro inputsExist _
  refine meets_lift_bind ?_ fun _ => trivial
  intro _ _
  refine meets_lift_bind ?_ fun _ => trivial
  intro _ _
  refine meets_queryDraft.bind ?_ fun _ _ _ => trivial
  intro asked state _
  refine meets_lift_bind ?_ fun _ => trivial
  intro _ _
  refine (meets_perform_bind _ _ _).mpr ⟨trivial, ?_⟩
  intro answer _
  refine meets_lift_bind ?_ fun _ => trivial
  intro _ isOk
  subst isOk
  have verified : IsVerified args (asked ++ [⟨.verify args.scope, .ok ()⟩]) := by
    simp [IsVerified]
  refine (meets_perform_bind _ _ _).mpr ⟨trivial, ?_⟩
  intro parsed _
  have stillVerified := verified.mono (List.prefix_append _
    [⟨.revParse (args.target ++ "^\x7bcommit\x7d"), parsed⟩])
  refine meets_lift_bind ?_ fun _ => trivial
  intro target _
  refine (meets_prepareDraft target stillVerified).bind ?_ fun _ _ _ => trivial
  intro prepared _ extended
  exact meets_sendFiles (stillVerified.mono extended)

/-- Whatever GitHub answers, and however the release changes between two queries, each command
of `gh` is a query or is used under its guard. A release is edited or filled only where the
last query reported a draft, and created, as a draft, only where the last query established
that there is none. Before that the directory has been verified, and what is sent are the
verified files. -/
theorem upload_is_guarded
    {trace : Past}
    {rest : Routine Unit}
    (steps : Steps (main python join args) trace rest) :
    ∀ before arguments answer after, trace = before ++ ⟨.gh arguments, answer⟩ :: after ->
      Guarded python join args before arguments := by
  intro before arguments answer after split
  exact (meets_main.steps steps fun _ _ _ _ => trivial).1 before _ after split

end Drafts

namespace SampleUpload

def join (directory name : String) : String := directory ++ "/" ++ name

def args : Arguments where
  repo := "owner/repository"
  tag := "v0.1.2"
  target := "main"
  title := "0.1.2"
  notesFile := "notes.md"
  artifactDir := "release"
  macosOnly := true

/-- GitHub says that the release is a draft. -/
def isDraft : Event Call Call.Answer :=
  ⟨.gh args.viewCommand, .ok ⟨true, "\x7b\"isDraft\":true\x7d\n"⟩⟩

/-- The calls for a draft, up to the command that sends the files. -/
def beforeUpload : Past :=
  [⟨.inputsExist, true⟩, isDraft, ⟨.verify args.scope, .ok ()⟩,
    ⟨.revParse "main^\x7bcommit\x7d", .ok SampleRelease.source.sourceCommit⟩, isDraft,
    ⟨.gh (args.editCommand SampleRelease.source.sourceCommit), .ok ⟨true, ""⟩⟩, isDraft,
    ⟨.readIndex, .ok SampleRelease.index⟩]

/-- The files of a release with the macOS package alone. -/
def paths : List String :=
  ["release/macos-auth-0.1.2-darwin-arm64.pkg",
    "release/macos-auth-0.1.2-darwin-arm64.pkg.metadata.json",
    "release/macos-auth-0.1.2-darwin-arm64.pkg.sha256",
    "release/SHA256SUMS-darwin-arm64", "release/BUILD-METADATA.txt",
    "release/BUILD-METADATA-darwin-arm64.txt"]

/-- A Mac on which the commands of Apple accept the package. -/
def mac : Platform where
  system := "darwin"
  run _ := .ok ()

theorem verify_release :
    Release.verify SampleRelease.python SampleRelease.host args.scope mac SampleRelease.release
      args.artifactDir = .ok () :=
  SampleRelease.verify_eq_ok_of_release rfl (fun _ _ found => found) (fun _ => ⟨rfl, fun _ => rfl⟩)
    "release"

theorem readIndex_release :
    ArtifactPath.readJson SampleRelease.python
      { directory := SampleRelease.release, location := args.artifactDir,
        name := "BUILD-METADATA.txt" } = .ok SampleRelease.index :=
  ArtifactPath.readJson_eq_ok.mpr
    ⟨_, ArtifactPath.readBytes_of_file rfl, SampleRelease.jsonOf_indexText⟩

/-- The answers are those of the directory of the release. -/
theorem fromDirectory_release :
    ∀ event ∈ beforeUpload, FromDirectory SampleRelease.python args SampleRelease.host mac
      SampleRelease.release event := by
  simp only [beforeUpload, List.mem_cons, List.not_mem_nil, or_false, forall_eq_or_imp, forall_eq]
  exact ⟨trivial, trivial, verify_release.symm, trivial, trivial, trivial, trivial,
    readIndex_release.symm⟩

end SampleUpload

open SampleUpload in
/-- The files of the release are sent under their guard, and they are its verified files. -/
theorem upload_is_guarded_sample :
    Guarded SampleRelease.python join args beforeUpload (args.uploadCommand paths) ∧
      (∀ event ∈ beforeUpload, FromDirectory SampleRelease.python args SampleRelease.host mac
        SampleRelease.release event) ∧
      AreVerifiedFiles SampleRelease.python join args SampleRelease.release paths := by
  have steps : Steps (main SampleRelease.python join args)
      (beforeUpload ++ [⟨.gh (args.uploadCommand paths), .ok ⟨true, ""⟩⟩])
      (ghChecked args.showCommand) :=
    .call (.call (.call (.call (.call (.call (.call (.call (.call (.refl _)))))))))
  exact ⟨upload_is_guarded steps beforeUpload _ _ [] rfl, fromDirectory_release,
    areVerifiedFiles verify_release readIndex_release rfl⟩

end Upload
end Release
end MacosAuth
