import MacosAuth.Effect.Crash
import MacosAuth.Release.Build

/-!
# Notarizing a package

`notarize` copies a signed package to a work area, has Apple notarize the copy, and then puts
the copy with its own record under the final name. Every call may fail, the process may stop
between any two calls, and a write that fails may leave a part of the file.

The signed package stays as it is. What is found under the final name is never taken for a
notarized package unless all commands have succeeded for it, and a notarization that succeeds
leaves a package that the release accepts.
-/

namespace MacosAuth
namespace Release
namespace Notarization

open Codec (Bytes)
open Effect Effect.Program
open Protocol (bind_eq_ok)

/-! ## The program -/

deriving instance DecidableEq for Role

/-- The files that a notarization deals with. -/
inductive Place
  /-- The signed package and its sidecars. -/
  | input (role : Role)
  /-- The copy in the work area. -/
  | candidate (role : Role)
  | final (role : Role)
  /-- Any other file that the checksum may be written to. -/
  | elsewhere
  deriving DecidableEq

/-- The arguments of `notarize`, with resolved paths. -/
structure Request where
  /-- `pkg.name` -/
  inputName : String
  /-- `final_pkg.name` -/
  finalName : String
  /-- `pkg == final_pkg` -/
  isSame : Bool
  /-- `str(candidate)` -/
  candidate : String
  profile : String
  shaFile : Option Place

/-- What `notarize` calls. -/
inductive Call
  /-- `read_record(pkg, release=False)` -/
  | readRecord
  | exists (place : Place)
  /-- `final_pkg.parent.mkdir` -/
  | makeParent
  | stage
  /-- `shutil.copy2` -/
  | copy (source target : Place)
  /-- `subprocess.run` with `check=True`. -/
  | command (arguments : List String)
  | now
  | digest (place : Place)
  | writeText (place : Place) (text : String)
  | readText (place : Place)
  /-- `shutil.rmtree(work)` -/
  | removeWork

/-- What a call returns. -/
def Answer : Call -> Type
  | .readRecord => Except Exception Json
  | .exists _ => Bool
  | .now => String
  | .digest _ | .readText _ => Except Exception String
  | _ => Except Exception Unit

abbrev Routine := Program Call Answer Exception

/-- Raise an exception, or return a value. -/
def lift (result : Except Exception α) : Routine α :=
  .done result

/-- Make a call, and raise its exception if there is one. -/
def ask (call : Call) (returned : Answer call -> Except Exception α) : Routine α :=
  .call call fun answer => .done (returned answer)

variable (python : Python) (request : Request)

/-- The checks of the record of the signed package. -/
def checkRecord (record : Json) : Except Exception Unit := do
  let unsigned :=
    Exception.valueError "notarization requires a signed, clean-source builder artifact"
  let state ← record.item "state"
  refuse (!state.equals (.string "signed")) unsigned
  let source ← record.item "source"
  let clean ← source.get "source_clean"
  refuse (match clean with | .bool true => false | _ => true) unsigned
  let version ← record.item "version"
  let name ← artifactName python version (.string "darwin") (.string "arm64")
    (.string "notarized")
  refuse (request.finalName != name)
    (.valueError "--final-pkg must use the canonical notarized package name")

/-- There must be nothing under the final names. -/
def checkAbsent : List Role -> Routine Unit
  | [] => pure ()
  | role :: rest => do
      let isThere ← (ask (.exists (.final role)) .ok : Routine Bool)
      if isThere then
        fail (.valueError
          "final package/provenance already exists; use a fresh output directory")
      else
        checkAbsent rest

/-- `pkg == final_pkg or final_pkg.exists() or …` -/
def checkFresh : Routine Unit :=
  if request.isSame then
    fail (.valueError "final package/provenance already exists; use a fresh output directory")
  else
    checkAbsent [.package, .metadata, .checksum]

/-- The signed package, the final one and their sidecars. -/
def Place.isArtifact : Place -> Bool
  | .input _ | .final _ => true
  | _ => false

def checkShaFile : Except Exception Unit :=
  refuse (request.shaFile.any Place.isArtifact)
    (.valueError "checksum output must not replace an artifact or provenance file")

/-- The commands before the ticket is attached to the candidate, and the one that attaches it. -/
def submission : List (List String) :=
  [["pkgutil", "--check-signature", request.candidate],
    ["xcrun", "notarytool", "submit", request.candidate, "--keychain-profile", request.profile,
      "--wait"],
    ["xcrun", "stapler", "staple", request.candidate]]

/-- The commands that check the candidate afterwards. -/
def validation : List (List String) :=
  [["xcrun", "stapler", "validate", request.candidate],
    ["pkgutil", "--check-signature", request.candidate],
    ["spctl", "--assess", "--type", "install", "-vv", request.candidate]]

def runAll : List (List String) -> Routine Unit
  | [] => pure ()
  | arguments :: rest => do
      ask (.command arguments) id
      runAll rest

/-- The record of the notarized package, without its name and digest. -/
def notarizedItems (record : Json) (notarizedAt : String) (signed : Json) (metadata : String) :
    List (String × Json) :=
  setFields
    [("state", .string "notarized"), ("notarized_at_utc", .string notarizedAt),
      ("signed_input", .object
        [("artifact", .string request.inputName), ("metadata_sha256", .string metadata),
          ("sha256", signed)])]
    record.items

/-- The items of the record that `write_record` writes for the candidate. -/
def finalItems (record : Json) (notarizedAt : String) (signed : Json)
    (metadata package : String) : List (String × Json) :=
  setFields [("artifact", .string request.finalName), ("sha256", .string package)]
    (notarizedItems request record notarizedAt signed metadata)

/-- The record of the candidate, and `write_record`. -/
def recordCandidate (record : Json) : Routine Unit := do
  let notarizedAt ← (ask .now .ok : Routine String)
  let signed ← lift (record.item "sha256")
  let metadata ← ask (.digest (.input .metadata)) id
  let package ← ask (.digest (.candidate .package)) id
  let items := finalItems request record notarizedAt signed metadata package
  ask (.writeText (.candidate .metadata) (python.dumps (.object items) ++ "\n")) id
  ask (.writeText (.candidate .checksum) (checksumLine package request.finalName)) id

/-- The copies under the final names. -/
def copyOut : List Role -> Routine Unit
  | [] => pure ()
  | role :: rest => do
      ask (.copy (.candidate role) (.final role)) id
      copyOut rest

def writeShaFile : Routine Unit :=
  match request.shaFile with
  | none => pure ()
  | some place => do
      let text ← ask (.readText (.final .checksum)) id
      ask (.writeText place text) id

/-- What `notarize` does in the work area. -/
def produce (record : Json) : Routine Unit := do
  ask (.copy (.input .package) (.candidate .package)) id
  runAll (submission request)
  runAll (validation request)
  recordCandidate python request record
  copyOut [.package, .metadata, .checksum]
  writeShaFile request

/-- `notarize` -/
def notarize : Routine Unit := do
  let record ← ask .readRecord id
  lift (checkRecord python request record)
  checkFresh request
  lift (checkShaFile request)
  ask .makeParent id
  ask .stage id
  (produce python request record).ensuring (ask .removeWork id)

/-! ## The files -/

/-- The files, and what has happened to the candidate. -/
structure World where
  files : Place -> Option Node
  /-- The commands that have succeeded, each with the candidate that it was run on. -/
  passed : List (List String × Option Node)
  /-- The time of the record. -/
  now : String

/-- What is read from a file. A link is followed. -/
def contentOf : Option Node -> Option Bytes
  | some (.file content) | some (.symlink (.file content)) => some content
  | _ => none

/-- `Path.exists` -/
def isPresent : Option Node -> Bool
  | none | some (.symlink .missing) => false
  | _ => true

/-- What is there once a file has been written. A link is followed. -/
def overwritten (content : Bytes) : Option Node -> Option Node
  | none | some (.file _) => some (.file content)
  | some (.symlink _) => some (.symlink (.file content))
  | some node => some node

namespace World

variable (world : World)

def put (place : Place) (node : Option Node) : World :=
  { world with files := Function.update world.files place node }

def write (place : Place) (content : Bytes) : World :=
  world.put place (overwritten content (world.files place))

/-- Commands have succeeded for the candidate. -/
def pass (commands : List (List String)) (candidate : Option Node) : World where
  files := world.files
  passed := world.passed ++ commands.map fun arguments => (arguments, candidate)
  now := world.now

/-- A write that fails may leave any part of the file. -/
def Damaged (place : Place) (after : World) : Prop :=
  after = world ∨ ∃ content, after = world.write place content

/-- There are regular files with these contents. -/
def Holds (side : Role -> Place) (bundle : Bundle) : Prop :=
  ∀ role, world.files (side role) = some (.file (bundle.content role))

end World

/-- The command that changes the candidate. -/
def isStaple (arguments : List String) : Bool :=
  arguments.take 3 == ["xcrun", "stapler", "staple"]

/-- What a command does to the candidate. -/
def World.Handled (world : World) (arguments : List String) (after : World) : Prop :=
  ∃ node, (node = world.files (.candidate .package) ∨
      isStaple arguments = true ∧ ∃ content, node = some (.file content)) ∧
    after = world.put (.candidate .package) node

/-- What holds when a call has ended. -/
def Ended (answer : Except Exception α) (onOk : α -> Prop) (onError : Prop) : Prop :=
  match answer with
  | .ok value => onOk value
  | .error _ => onError

/-- The calls and the files. -/
def serving (world : World) : (call : Call) -> Answer call -> World -> Prop
  | .readRecord, answer, after => after = world ∧ Ended answer (fun record => ∃ bundle,
      world.Holds .input bundle ∧
        bundle.Genuine python request.inputName none none false record) True
  | .exists place, answer, after => after = world ∧ answer = isPresent (world.files place)
  | .makeParent, _, after => after = world
  | .stage, _, after => after = world
  | .copy source target, answer, after =>
      Ended answer
        (fun _ => ∃ content, contentOf (world.files source) = some content ∧
          after = world.write target content)
        (world.Damaged target after)
  | .command arguments, answer, after =>
      Ended answer
        (fun _ => ∃ handled, world.Handled arguments handled ∧
          after = handled.pass [arguments] (world.files (.candidate .package)))
        (world.Handled arguments after)
  | .now, answer, after => after = world ∧ answer = world.now
  | .digest place, answer, after => after = world ∧ Ended answer (fun digest =>
      ∃ content, contentOf (world.files place) = some content ∧ digest = python.sha256 content)
      True
  | .writeText place text, answer, after =>
      Ended answer
        (fun _ => ∃ content, python.encode text = some content ∧
          after = world.write place content)
        (world.Damaged place after)
  | .readText place, answer, after => after = world ∧ Ended answer (fun text =>
      ∃ content, contentOf (world.files place) = some content ∧
        python.textOf content = some text) True
  | .removeWork, _, after => after.passed = world.passed ∧ after.now = world.now ∧
      ∀ place, (∀ role, place ≠ .candidate role) -> after.files place = world.files place

/-- The work area is new. -/
structure World.Begins (world : World) : Prop where
  candidate : ∀ role, world.files (.candidate role) = none
  passed : world.passed = []
  dated : world.now ≠ ""

/-! ## What is kept -/

variable (start : World)

/-- All commands have succeeded for a package, those that check it on its very bytes, and its
record names the signed package that it was made from. -/
structure Endorsed (world : World) (bundle signed : Bundle) (record : Json) : Prop where
  input : start.Holds .input signed
  genuine : signed.Genuine python request.inputName none none false record
  checked : checkRecord python request record = .ok ()
  passed : world.passed =
    (submission request).map (fun arguments => (arguments, some (.file signed.package))) ++
      (validation request).map fun arguments => (arguments, some (.file bundle.package))
  metadata : python.encode (python.dumps (.object (finalItems request record start.now
    (.string (python.sha256 signed.package)) (python.sha256 signed.metadata)
    (python.sha256 bundle.package))) ++ "\n") = some bundle.metadata

/-- The signed package is as it was, and what was put under the final names is endorsed. -/
structure Intact (world : World) : Prop where
  input : ∀ role, world.files (.input role) = start.files (.input role)
  final : (∀ role, world.files (.final role) = start.files (.final role)) ∨
    ∀ bundle, world.Holds .final bundle ->
      ∃ signed record, Endorsed python request start world bundle signed record

/-- Neither the signed package nor the final one has been touched. -/
structure Untouched (world : World) : Prop where
  input : ∀ role, world.files (.input role) = start.files (.input role)
  final : ∀ role, world.files (.final role) = start.files (.final role)
  now : world.now = start.now

/-- The notarized package is under the final names. -/
structure Complete (world : World) (bundle : Bundle) : Prop where
  input : ∀ role, world.files (.input role) = start.files (.input role)
  final : ∀ role, world.files (.final role) =
    overwritten (bundle.content role) (start.files (.final role))
  endorsed : ∃ signed record, Endorsed python request start world bundle signed record
  line : python.encode (checksumLine (python.sha256 bundle.package) request.finalName) =
    some bundle.checksum

/-- The program keeps everything intact, and its result satisfies a condition. -/
def Leads (program : Routine α) (world : World) (post : α -> World -> Prop) : Prop :=
  program.Survives (serving python request) (Intact python request start) world
    fun result after => ∀ value, result = .ok value -> post value after

section Rules

variable {python : Python} {request : Request} {start world : World}

theorem Untouched.intact (untouched : Untouched start world) :
    Intact python request start world where
  input := untouched.input
  final := .inl untouched.final

theorem Leads.bind
    {program : Routine α}
    {next : α -> Routine β}
    {middle : α -> World -> Prop}
    {post : β -> World -> Prop}
    (leads : Leads python request start program world middle)
    (continues : ∀ value after, Intact python request start after -> middle value after ->
      Leads python request start (next value) after post) :
    Leads python request start (program >>= next) world post := by
  refine Survives.bind leads (fun value after intact holds => ?_) ?_
  · exact continues value after intact (holds value rfl)
  · intro error after _ value impossible
    cases impossible

theorem leads_ask
    {call : Call}
    {returned : Answer call -> Except Exception α}
    {post : α -> World -> Prop}
    (intact : Intact python request start world)
    (each : ∀ answer after, serving python request world call answer after ->
      Intact python request start after ∧
        ∀ value, returned answer = .ok value -> post value after) :
    Leads python request start (ask call returned) world post :=
  ⟨intact, fun answer after served => each answer after served⟩

theorem leads_lift
    {result : Except Exception α}
    {post : α -> World -> Prop}
    (intact : Intact python request start world)
    (holds : ∀ value, result = .ok value -> post value world) :
    Leads python request start (lift result) world post :=
  ⟨intact, holds⟩

/-- A call that changes no file. -/
theorem leads_unchanged
    {call : Call}
    {returned : Answer call -> Except Exception α}
    (intact : Intact python request start world)
    (same : ∀ answer after, serving python request world call answer after -> after = world) :
    Leads python request start (ask call returned) world fun _ after => after = world := by
  refine leads_ask intact fun answer after served => ?_
  obtain rfl := same answer after served
  exact ⟨intact, fun _ _ => rfl⟩

theorem leads_check
    {check : Except Exception Unit}
    (intact : Intact python request start world) :
    Leads python request start (lift check) world fun _ after =>
      after = world ∧ check = .ok () :=
  leads_lift intact fun _ passes => ⟨rfl, passes⟩

/-! ## Before anything is put under the final names -/

theorem World.put_files (world : World) (place other : Place) (node : Option Node) :
    (world.put place node).files other = if other = place then node else world.files other :=
  Function.update_apply _ _ _ _

theorem World.pass_files
    (world : World)
    (commands : List (List String))
    (candidate : Option Node)
    (place : Place) :
    (world.pass commands candidate).files place = world.files place :=
  rfl

/-- What is neither the signed package nor the final one may be written. -/
theorem Untouched.put
    {place : Place}
    (untouched : Untouched start world)
    (noArtifact : place.isArtifact = false)
    (node : Option Node) :
    Untouched start (world.put place node) := by
  refine ⟨fun role => ?_, fun role => ?_, untouched.now⟩
  · rw [World.put_files, if_neg, untouched.input]
    rintro rfl
    cases noArtifact
  · rw [World.put_files, if_neg, untouched.final]
    rintro rfl
    cases noArtifact

theorem Untouched.pass
    (untouched : Untouched start world)
    (commands : List (List String))
    (candidate : Option Node) :
    Untouched start (world.pass commands candidate) where
  input := untouched.input
  final := untouched.final
  now := untouched.now

theorem Untouched.damaged
    {place : Place}
    {after : World}
    (untouched : Untouched start world)
    (noArtifact : place.isArtifact = false)
    (damaged : world.Damaged place after) :
    Untouched start after := by
  rcases damaged with rfl | ⟨content, rfl⟩
  · exact untouched
  · exact untouched.put noArtifact _

theorem leads_checkAbsent
    (untouched : Untouched start world)
    (roles : List Role) :
    Leads python request start (checkAbsent roles) world fun _ after =>
      after = world ∧ ∀ role ∈ roles, isPresent (world.files (.final role)) = false := by
  induction roles with
  | nil => exact leads_lift untouched.intact fun _ _ => ⟨rfl, by simp⟩
  | cons role rest inductionHypothesis =>
      have asks : Leads python request start (ask (.exists (.final role)) .ok : Routine Bool) world
          fun isThere after =>
            after = world ∧ isThere = isPresent (world.files (.final role)) := by
        refine leads_ask untouched.intact ?_
        rintro answer after ⟨rfl, rfl⟩
        refine ⟨untouched.intact, ?_⟩
        rintro value ⟨⟩
        exact ⟨rfl, rfl⟩
      refine asks.bind ?_
      rintro isThere after intact ⟨rfl, rfl⟩
      cases isThere : isPresent (after.files (.final role)) with
      | true => exact leads_lift intact (by rintro value ⟨⟩)
      | false =>
          refine inductionHypothesis.mono ?_
          intro result final _ holds value ended
          obtain ⟨rfl, absent⟩ := holds value ended
          exact ⟨rfl, List.forall_mem_cons.mpr ⟨isThere, absent⟩⟩

theorem leads_checkFresh (untouched : Untouched start start) :
    Leads python request start (checkFresh request) start fun _ after =>
      after = start ∧ ∀ role, isPresent (start.files (.final role)) = false := by
  unfold checkFresh
  split
  · exact leads_lift untouched.intact (by rintro value ⟨⟩)
  · refine (leads_checkAbsent untouched _).mono ?_
    intro result after _ holds value ended
    obtain ⟨rfl, absent⟩ := holds value ended
    refine ⟨rfl, fun role => absent role ?_⟩
    cases role <;> simp

/-- Commands that succeed have all been run on the candidate as it was. -/
theorem leads_runAll
    (commands : List (List String))
    (stapleLast : ∀ arguments ∈ commands.dropLast, isStaple arguments = false)
    (untouched : Untouched start world) :
    Leads python request start (runAll commands) world fun _ after =>
      ∃ node, (node = world.files (.candidate .package) ∨
          (∃ arguments ∈ commands, isStaple arguments = true) ∧
            ∃ content, node = some (.file content)) ∧
        after = (world.put (.candidate .package) node).pass commands
          (world.files (.candidate .package)) := by
  induction commands generalizing world with
  | nil =>
      refine leads_lift untouched.intact fun _ _ => ⟨_, .inl rfl, ?_⟩
      simp [World.put, World.pass]
  | cons arguments rest inductionHypothesis =>
      have asks : Leads python request start (ask (.command arguments) id : Routine Unit) world
          fun _ after => ∃ handled, world.Handled arguments handled ∧
            after = handled.pass [arguments] (world.files (.candidate .package)) := by
        refine leads_ask untouched.intact fun answer after served => ?_
        cases answer with
        | error error =>
            obtain ⟨node, _, rfl⟩ := served
            exact ⟨(untouched.put rfl node).intact, by rintro value ⟨⟩⟩
        | ok value =>
            obtain ⟨handled, ⟨node, kept, rfl⟩, rfl⟩ := served
            refine ⟨((untouched.put rfl node).pass _ _).intact, fun _ _ => ?_⟩
            exact ⟨_, ⟨node, kept, rfl⟩, rfl⟩
      refine asks.bind ?_
      rintro ⟨⟩ after _ ⟨_, ⟨node, kept, rfl⟩, rfl⟩
      have stapleLast' : ∀ arguments ∈ rest.dropLast, isStaple arguments = false := by
        intro other member
        cases rest with
        | nil => simp at member
        | cons next others => exact stapleLast other (List.mem_cons_of_mem _ member)
      refine (inductionHypothesis stapleLast' ((untouched.put rfl node).pass _ _)).mono ?_
      intro result final _ holds value ended
      obtain ⟨node', kept', rfl⟩ := holds value ended
      have isNode : ((world.put (.candidate .package) node).pass [arguments]
          (world.files (.candidate .package))).files (.candidate .package) = node := by
        rw [World.pass_files, World.put_files, if_pos rfl]
      rw [isNode] at kept' ⊢
      have unstapled : rest ≠ [] -> node = world.files (.candidate .package) := by
        intro nonempty
        have noStaple : isStaple arguments = false := by
          refine stapleLast arguments ?_
          rw [List.dropLast_cons_of_ne_nil nonempty]
          exact List.mem_cons_self
        rcases kept with same | ⟨stapled, _⟩
        · exact same
        · rw [noStaple] at stapled
          cases stapled
      refine ⟨node', ?_, ?_⟩
      · rcases kept' with rfl | ⟨⟨other, member, stapled⟩, isFile⟩
        · refine kept.imp_right fun handled => ?_
          exact ⟨⟨arguments, List.mem_cons_self, handled.1⟩, handled.2⟩
        · exact .inr ⟨⟨other, List.mem_cons_of_mem _ member, stapled⟩, isFile⟩
      · have logged : rest.map (fun arguments => (arguments, node)) =
            rest.map fun arguments => (arguments, world.files (.candidate .package)) := by
          cases rest with
          | nil => rfl
          | cons next others => rw [unstapled (List.cons_ne_nil _ _)]
        simp only [World.pass, World.put, logged, Function.update_idem, List.append_assoc,
          List.map_cons, List.map_nil, List.singleton_append]

theorem leads_now (intact : Intact python request start world) :
    Leads python request start (ask .now .ok : Routine String) world fun notarizedAt after =>
      after = world ∧ notarizedAt = world.now := by
  refine leads_ask intact ?_
  rintro answer after ⟨rfl, rfl⟩
  refine ⟨intact, ?_⟩
  rintro value ⟨⟩
  exact ⟨rfl, rfl⟩

theorem leads_digest
    {place : Place}
    {content : Bytes}
    (intact : Intact python request start world)
    (file : world.files place = some (.file content)) :
    Leads python request start (ask (.digest place) id) world fun digest after =>
      after = world ∧ digest = python.sha256 content := by
  refine leads_ask intact ?_
  rintro (error | digest) after ⟨rfl, digested⟩
  · exact ⟨intact, by rintro value ⟨⟩⟩
  · obtain ⟨found, read, rfl⟩ := digested
    rw [file, contentOf, Option.some.injEq] at read
    refine ⟨intact, ?_⟩
    rintro value ⟨⟩
    exact ⟨rfl, by rw [read]⟩

theorem leads_writeText
    {place : Place}
    {text : String}
    (untouched : Untouched start world)
    (noArtifact : place.isArtifact = false) :
    Leads python request start (ask (.writeText place text) id) world fun _ after =>
      ∃ content, python.encode text = some content ∧ after = world.write place content := by
  refine leads_ask untouched.intact ?_
  rintro (error | done) after served
  · exact ⟨(untouched.damaged noArtifact served).intact, by rintro value ⟨⟩⟩
  · obtain ⟨content, encoded, rfl⟩ := served
    exact ⟨(untouched.put noArtifact _).intact, fun _ _ => ⟨content, encoded, rfl⟩⟩

/-- The candidate gets its record and its checksum. -/
theorem leads_recordCandidate
    {signed : Bundle}
    {package : Bytes}
    {record : Json}
    (untouched : Untouched start world)
    (input : start.Holds .input signed)
    (recorded : record.item "sha256" = .ok (.string (python.sha256 signed.package)))
    (isPackage : world.files (.candidate .package) = some (.file package))
    (noMetadata : world.files (.candidate .metadata) = none)
    (noChecksum : world.files (.candidate .checksum) = none) :
    Leads python request start (recordCandidate python request record) world fun _ after =>
      ∃ bundle, bundle.package = package ∧
        python.encode (python.dumps (.object (finalItems request record start.now
          (.string (python.sha256 signed.package)) (python.sha256 signed.metadata)
          (python.sha256 package))) ++ "\n") = some bundle.metadata ∧
        python.encode (checksumLine (python.sha256 package) request.finalName) =
          some bundle.checksum ∧
        after.Holds .candidate bundle ∧ Untouched start after ∧ after.passed = world.passed := by
  have isMetadata : world.files (.input .metadata) = some (.file signed.metadata) := by
    rw [untouched.input]
    exact input .metadata
  refine (leads_now untouched.intact).bind ?_
  rintro notarizedAt after intact ⟨rfl, rfl⟩
  rw [recorded, untouched.now]
  refine (leads_digest intact isMetadata).bind ?_
  rintro _ after intact ⟨rfl, rfl⟩
  refine (leads_digest intact isPackage).bind ?_
  rintro _ after intact ⟨rfl, rfl⟩
  refine (leads_writeText untouched rfl).bind ?_
  rintro ⟨⟩ _ _ ⟨metadata, metadataEncoded, rfl⟩
  have untouched' := untouched.put (rfl : Place.isArtifact (.candidate .metadata) = false)
    (overwritten metadata (after.files (.candidate .metadata)))
  refine (leads_writeText untouched' rfl).mono ?_
  intro result final _ holds value ended
  obtain ⟨line, lineEncoded, rfl⟩ := holds value ended
  refine ⟨⟨package, metadata, line⟩, rfl, metadataEncoded, lineEncoded, ?_,
    untouched'.put rfl _, rfl⟩
  rintro (_ | _ | _)
  · simpa [World.write, World.put_files, Bundle.content] using isPackage
  · simp [World.write, World.put_files, noMetadata, overwritten, Bundle.content]
  · simp [World.write, World.put_files, noChecksum, overwritten, Bundle.content]

/-! ## The final names -/

variable {bundle : Bundle}

/-- Only the package and its record matter for an endorsement. -/
theorem Endorsed.congr
    {signed other : Bundle}
    {record : Json}
    {after : World}
    (endorsed : Endorsed python request start world bundle signed record)
    (passed : after.passed = world.passed)
    (package : other.package = bundle.package)
    (metadata : other.metadata = bundle.metadata) :
    Endorsed python request start after other signed record where
  input := endorsed.input
  genuine := endorsed.genuine
  checked := endorsed.checked
  passed := by rw [passed, package, endorsed.passed]
  metadata := by rw [package, metadata, endorsed.metadata]

/-- There is no package as long as a sidecar is missing. -/
theorem intact_of_absent
    {role : Role}
    (input : ∀ role, world.files (.input role) = start.files (.input role))
    (kept : world.files (.final role) = start.files (.final role))
    (absent : isPresent (start.files (.final role)) = false) :
    Intact python request start world where
  input := input
  final := by
    refine .inr fun bundle holds => ?_
    rw [← kept, holds role] at absent
    cases absent

/-- A written file has its content if it is regular. -/
theorem content_of_overwritten
    {content found : Bytes}
    {before : Option Node}
    (isFile : overwritten content before = some (.file found)) :
    found = content := by
  rcases before with _ | (_ | _ | _ | _) <;> simp_all [overwritten]

theorem intact_of_copies
    {signed : Bundle}
    {record : Json}
    (input : ∀ role, world.files (.input role) = start.files (.input role))
    (package : world.files (.final .package) =
      overwritten bundle.package (start.files (.final .package)))
    (metadata : world.files (.final .metadata) =
      overwritten bundle.metadata (start.files (.final .metadata)))
    (endorsed : Endorsed python request start world bundle signed record) :
    Intact python request start world where
  input := input
  final := by
    refine .inr fun found holds => ⟨signed, record, ?_⟩
    refine endorsed.congr rfl ?_ ?_
    · exact content_of_overwritten (package.symm.trans (holds .package))
    · exact content_of_overwritten (metadata.symm.trans (holds .metadata))

theorem Complete.intact (complete : Complete python request start world bundle) :
    Intact python request start world := by
  obtain ⟨signed, record, endorsed⟩ := complete.endorsed
  exact intact_of_copies complete.input (complete.final .package) (complete.final .metadata)
    endorsed

/-- What is no artifact may change. -/
theorem Intact.congr
    {after : World}
    (intact : Intact python request start world)
    (passed : after.passed = world.passed)
    (same : ∀ place, place.isArtifact = true -> after.files place = world.files place) :
    Intact python request start after where
  input role := by rw [same _ rfl, intact.input]
  final := by
    refine intact.final.imp (fun kept role => by rw [same _ rfl, kept]) fun each bundle holds => ?_
    obtain ⟨signed, record, endorsed⟩ :=
      each bundle fun role => by rw [← same _ rfl, holds role]
    exact ⟨signed, record, endorsed.congr passed rfl rfl⟩

theorem Complete.congr
    {after : World}
    (complete : Complete python request start world bundle)
    (passed : after.passed = world.passed)
    (same : ∀ place, place.isArtifact = true -> after.files place = world.files place) :
    Complete python request start after bundle where
  input role := by rw [same _ rfl, complete.input]
  final role := by rw [same _ rfl, complete.final]
  endorsed := by
    obtain ⟨signed, record, endorsed⟩ := complete.endorsed
    exact ⟨signed, record, endorsed.congr passed rfl rfl⟩
  line := complete.line

theorem World.write_files (world : World) (place other : Place) (content : Bytes) :
    (world.write place content).files other =
      if other = place then overwritten content (world.files place) else world.files other := by
  rw [World.write, World.put_files]

/-- A file of the candidate is copied, or a part of it. -/
theorem leads_copy
    {source target : Place}
    {content : Bytes}
    (intact : Intact python request start world)
    (file : world.files source = some (.file content))
    (damaged : ∀ part, Intact python request start (world.write target part)) :
    Leads python request start (ask (.copy source target) id) world fun _ after =>
      after = world.write target content := by
  refine leads_ask intact ?_
  rintro (error | done) after served
  · refine ⟨?_, by rintro value ⟨⟩⟩
    rcases served with rfl | ⟨part, rfl⟩
    · exact intact
    · exact damaged part
  · obtain ⟨found, read, rfl⟩ := served
    rw [file, contentOf, Option.some.injEq] at read
    rw [read]
    exact ⟨damaged found, fun _ _ => rfl⟩

/-- The candidate is copied to the final names. -/
theorem leads_copyOut
    {signed : Bundle}
    {record : Json}
    (untouched : Untouched start world)
    (absent : ∀ role, isPresent (start.files (.final role)) = false)
    (candidate : world.Holds .candidate bundle)
    (endorsed : Endorsed python request start world bundle signed record)
    (line : python.encode (checksumLine (python.sha256 bundle.package) request.finalName) =
      some bundle.checksum) :
    Leads python request start (copyOut [.package, .metadata, .checksum]) world fun _ after =>
      Complete python request start after bundle := by
  -- As long as the checksum is not there, nothing is taken for a package.
  have early {after : World}
      (input : ∀ role, after.files (.input role) = world.files (.input role))
      (checksum : after.files (.final .checksum) = world.files (.final .checksum)) :
      Intact python request start after :=
    intact_of_absent (fun role => (input role).trans (untouched.input role))
      (checksum.trans (untouched.final .checksum)) (absent .checksum)
  have input (written : World) (role target : Role) (content : Bytes) :
      (written.write (.final target) content).files (.input role) =
        written.files (.input role) := by
    simp [World.write_files]
  have apart (written : World) (place : Place) (target : Role) (content : Bytes)
      (different : place ≠ .final target) :
      (written.write (.final target) content).files place = written.files place := by
    rw [World.write_files, if_neg different]
  let first := world.write (.final .package) bundle.package
  let second := first.write (.final .metadata) bundle.metadata
  let third := second.write (.final .checksum) bundle.checksum
  refine (leads_copy untouched.intact (candidate .package) fun part =>
    early (fun role => input _ _ _ _) (apart _ _ _ _ (by simp))).bind ?_
  rintro ⟨⟩ _ intact rfl
  have inFirst : first.files (.candidate .metadata) = some (.file bundle.metadata) := by
    rw [apart _ _ _ _ (by simp)]
    exact candidate .metadata
  refine (leads_copy intact inFirst fun part =>
    early (fun role => by rw [input, input]) (by rw [apart, apart] <;> simp)).bind ?_
  rintro ⟨⟩ _ intact rfl
  have inSecond : second.files (.candidate .checksum) = some (.file bundle.checksum) := by
    rw [apart _ _ _ _ (by simp), apart _ _ _ _ (by simp)]
    exact candidate .checksum
  have keptInput (content : Bytes) (role : Role) :
      (second.write (.final .checksum) content).files (.input role) =
        start.files (.input role) := by
    rw [input, input, input, untouched.input]
  have isPackage (content : Bytes) :
      (second.write (.final .checksum) content).files (.final .package) =
        overwritten bundle.package (start.files (.final .package)) := by
    rw [apart _ _ _ _ (by simp), apart _ _ _ _ (by simp), World.write_files, if_pos rfl,
      untouched.final]
  have isMetadata (content : Bytes) :
      (second.write (.final .checksum) content).files (.final .metadata) =
        overwritten bundle.metadata (start.files (.final .metadata)) := by
    rw [apart _ _ _ _ (by simp), World.write_files, if_pos rfl, apart _ _ _ _ (by simp),
      untouched.final]
  have late (content : Bytes) :
      Intact python request start (second.write (.final .checksum) content) :=
    intact_of_copies (keptInput content) (isPackage content) (isMetadata content)
      (endorsed.congr rfl rfl rfl)
  refine (leads_copy intact inSecond late).bind ?_
  rintro ⟨⟩ _ intact rfl
  refine leads_lift intact fun _ _ => ?_
  refine ⟨keptInput _, ?_, ⟨signed, record, endorsed.congr rfl rfl rfl⟩, line⟩
  rintro (_ | _ | _)
  · exact isPackage _
  · exact isMetadata _
  · rw [World.write_files, if_pos rfl, apart _ _ _ _ (by simp), apart _ _ _ _ (by simp),
      untouched.final]
    rfl

/-- The checksum may be written elsewhere in addition. -/
theorem leads_writeShaFile
    (complete : Complete python request start world bundle)
    (allowed : checkShaFile request = .ok ()) :
    Leads python request start (writeShaFile request) world fun _ after =>
      Complete python request start after bundle := by
  have noArtifact : request.shaFile.any Place.isArtifact = false :=
    (refuse_eq_ok _ _ _).mp allowed
  unfold writeShaFile
  cases shaFile : request.shaFile with
  | none => exact leads_lift complete.intact fun _ _ => complete
  | some place =>
      rw [shaFile, Option.any_some] at noArtifact
      have written (content : Bytes) :
          Complete python request start (world.write place content) bundle := by
        refine complete.congr rfl fun other isArtifact => ?_
        rw [World.write_files, if_neg]
        rintro rfl
        simp [noArtifact] at isArtifact
      refine (leads_unchanged complete.intact ?_).bind ?_
      · exact fun _ _ served => served.1
      rintro text after _ rfl
      refine leads_ask complete.intact ?_
      rintro (error | done) after' served
      · refine ⟨?_, by rintro value ⟨⟩⟩
        rcases served with rfl | ⟨content, rfl⟩
        · exact complete.intact
        · exact (written content).intact
      · obtain ⟨content, _, rfl⟩ := served
        exact ⟨(written content).intact, fun _ _ => written content⟩

/-! ## The whole notarization -/

/-- What happens in the work area. -/
theorem leads_produce
    {signed : Bundle}
    {record : Json}
    (begins : world.Begins)
    (untouched : Untouched start world)
    (absent : ∀ role, isPresent (start.files (.final role)) = false)
    (input : start.Holds .input signed)
    (genuine : signed.Genuine python request.inputName none none false record)
    (checked : checkRecord python request record = .ok ())
    (allowed : checkShaFile request = .ok ()) :
    Leads python request start (produce python request record) world fun _ after =>
      ∃ bundle, Complete python request start after bundle := by
  have isInput : world.files (.input .package) = some (.file signed.package) := by
    rw [untouched.input]
    exact input .package
  refine (leads_copy untouched.intact isInput fun part => (untouched.put rfl _).intact).bind ?_
  rintro ⟨⟩ _ _ rfl
  have copied : (world.write (.candidate .package) signed.package).files (.candidate .package) =
      some (.file signed.package) := by
    rw [World.write_files, if_pos rfl, begins.candidate, overwritten]
  have untouched' : Untouched start (world.write (.candidate .package) signed.package) :=
    untouched.put rfl _
  refine (leads_runAll (submission request) ?_ untouched').bind ?_
  · simp [submission, isStaple]
  rintro ⟨⟩ _ _ ⟨node, kept, rfl⟩
  rw [copied] at kept ⊢
  obtain ⟨package, rfl⟩ : ∃ package, node = some (.file package) := by
    rcases kept with rfl | ⟨_, isFile⟩
    · exact ⟨_, rfl⟩
    · exact isFile
  let stapled := ((world.write (.candidate .package) signed.package).put (.candidate .package)
    (some (.file package))).pass (submission request) (some (.file signed.package))
  have isStapled : stapled.files (.candidate .package) = some (.file package) := by
    simp only [stapled, World.pass_files, World.put_files, if_true]
  have untouched'' : Untouched start stapled := (untouched'.put rfl _).pass _ _
  refine (leads_runAll (validation request) ?_ untouched'').bind ?_
  · simp [validation, isStaple]
  rintro ⟨⟩ _ _ ⟨node, kept, rfl⟩
  obtain rfl : node = some (.file package) := by
    rw [isStapled] at kept
    rcases kept with same | ⟨impossible, _⟩
    · exact same
    · simp [validation, isStaple] at impossible
  rw [isStapled]
  let validated := (stapled.put (.candidate .package) (some (.file package))).pass
    (validation request) (some (.file package))
  have isValidated : validated.files (.candidate .package) = some (.file package) := by
    simp only [validated, World.pass_files, World.put_files, if_true]
  have noSidecar (role : Role) (isSidecar : role ≠ .package) :
      validated.files (.candidate role) = none := by
    have apart : Place.candidate role ≠ .candidate .package := by simpa using isSidecar
    simp only [validated, stapled, World.pass_files, World.put_files, World.write_files,
      if_neg apart, begins.candidate]
  refine (leads_recordCandidate ((untouched''.put rfl _).pass _ _) input genuine.digest isValidated
    (noSidecar .metadata (by simp)) (noSidecar .checksum (by simp))).bind ?_
  rintro ⟨⟩ recorded _ ⟨bundle, rfl, metadata, line, candidate, untouched, passed⟩
  have endorsed : Endorsed python request start recorded bundle signed record := by
    refine ⟨input, genuine, checked, ?_, metadata⟩
    rw [passed]
    simp [stapled, World.pass, World.put, World.write, begins.passed]
  refine (leads_copyOut untouched absent candidate endorsed line).bind ?_
  rintro ⟨⟩ _ _ complete
  refine (leads_writeShaFile complete allowed).mono ?_
  intro result final _ holds value ended
  exact ⟨bundle, holds value ended⟩

/-- The whole notarization. -/
theorem leads_notarize (begins : start.Begins) :
    Leads python request start (notarize python request) start fun _ after =>
      (∀ role, isPresent (start.files (.final role)) = false) ∧
        ∃ bundle, Complete python request start after bundle := by
  have untouched : Untouched start start := ⟨fun _ => rfl, fun _ => rfl, rfl⟩
  have reads : Leads python request start (ask .readRecord id) start fun record after =>
      after = start ∧ ∃ signed, start.Holds .input signed ∧
        signed.Genuine python request.inputName none none false record := by
    refine leads_ask untouched.intact ?_
    rintro (error | record) after ⟨rfl, served⟩
    · exact ⟨untouched.intact, by rintro value ⟨⟩⟩
    · refine ⟨untouched.intact, ?_⟩
      rintro value ⟨⟩
      exact ⟨rfl, served⟩
  refine reads.bind ?_
  rintro record after _ ⟨rfl, signed, input, genuine⟩
  refine (leads_check untouched.intact).bind ?_
  rintro ⟨⟩ after _ ⟨rfl, checked⟩
  refine (leads_checkFresh untouched).bind ?_
  rintro ⟨⟩ after _ ⟨rfl, absent⟩
  refine (leads_check untouched.intact).bind ?_
  rintro ⟨⟩ after _ ⟨rfl, allowed⟩
  refine (leads_unchanged untouched.intact ?_).bind ?_
  · exact fun _ _ served => served
  rintro ⟨⟩ after _ rfl
  refine (leads_unchanged untouched.intact ?_).bind ?_
  · exact fun _ _ served => served
  rintro ⟨⟩ after _ rfl
  refine Survives.ensuring
    (leads_produce begins untouched absent input genuine checked allowed) ?_
  intro result final intact holds
  refine ⟨intact, fun answer last served => ?_⟩
  have same : ∀ place, place.isArtifact = true -> last.files place = final.files place := by
    intro place isArtifact
    refine served.2.2 place ?_
    rintro role rfl
    cases isArtifact
  refine ⟨intact.congr served.1 same, ?_⟩
  cases answer with
  | error error => rintro value ⟨⟩
  | ok done =>
      intro value ended
      obtain ⟨bundle, complete⟩ := holds value ended
      exact ⟨absent, bundle, complete.congr served.1 same⟩

/-- Whatever call has failed and wherever the process has stopped, the signed package is as it
was. What lies under the final names is what was there before, or it is no complete package, or
all commands have succeeded for it: those that check it were run on its very bytes, and its
record names the signed package and the digests of both. -/
theorem notarization_leaves_intact
    {trace : List (Event Call Answer)}
    {rest : Routine Unit}
    (begins : start.Begins)
    (executes : Executes (serving python request) (notarize python request) start trace rest
      world) :
    Intact python request start world :=
  ((leads_notarize begins).executes executes).1

/-! ## What a release accepts -/

variable {signed : Bundle} {record : Json} {notarizedAt : String}

/-- What was built for macOS. -/
def macosBuild (state : String) : Build where
  distro := "darwin"
  arch := "arm64"
  state := state
  installPrefix := none

/-- What `read_record` and `notarize` have seen in the record of the signed package. -/
structure IsSigned
    (python : Python)
    (request : Request)
    (fields : List (String × Json))
    (version : String)
    (source : Json) :
    Prop where
  recorded : IsRecorded request.inputName (macosBuild "signed") version source fields
  isClean : source.get "source_clean" = .ok (.bool true)
  signedName : artifactName python (.string version) (.string "darwin") (.string "arm64")
    (.string "signed") = .ok request.inputName
  finalName : artifactName python (.string version) (.string "darwin") (.string "arm64")
    (.string "notarized") = .ok request.finalName

theorem lookup_of_item
    {fields : List (String × Json)}
    {key : String}
    {value : Json} :
    Json.item (.object fields) key = .ok value ↔ fields.lookup key = some value := by
  rw [Json.item]
  cases fields.lookup key <;> simp

theorem exists_isSigned
    (genuine : signed.Genuine python request.inputName none none false record)
    (checked : checkRecord python request record = .ok ()) :
    ∃ fields version source, record = .object fields ∧
      IsSigned python request fields version source := by
  simp only [checkRecord, bind_eq_ok, refuse_eq_ok, exists_and_left, exists_const,
    Bool.not_eq_eq_eq_not, Bool.not_false, Json.equals_string, bne_eq_false_iff_eq] at checked
  obtain ⟨_, hasState, rfl, source, hasSource, clean, hasClean, isClean, version, hasVersion,
    finalName, named, same⟩ := checked
  have identity := genuine.identity
  simp only [checkIdentity, bind_eq_ok, refuse_eq_ok, exists_and_left, exists_const,
    Bool.or_eq_false_iff, Bool.not_eq_eq_eq_not, Bool.not_false, Json.equals_string,
    bne_eq_false_iff_eq] at identity
  obtain ⟨schemaVersion, hasSchema, isSchema, version', hasVersion', distro, hasDistro, arch,
    hasArch, state, hasState', requiredName, signedName, artifact, hasArtifact, ⟨rfl, sameName⟩,
    _⟩ := identity
  cases record with
  | object fields =>
      rw [lookup_of_item] at hasState hasState' hasVersion hasVersion'
      rw [lookup_of_item] at hasSource hasDistro hasArch hasArtifact
      obtain rfl := Option.some.inj (hasVersion.symm.trans hasVersion')
      obtain rfl := Option.some.inj (hasState.symm.trans hasState')
      rw [← Except.ok.inj hasSchema] at isSchema
      obtain ⟨text, rfl, ⟨linuxDistro, _, target, rfl, _⟩ | ⟨rfl, rfl, _⟩⟩ :=
        artifactName_cases signedName
      · have notDarwin : linuxDistro ≠ "darwin" := by
          rintro rfl
          simp [linuxTargets] at target
        exact absurd (state_of_artifactName signedName notDarwin) (by decide)
      · refine ⟨fields, text, source, rfl, ⟨isSchema, hasVersion, hasDistro, hasArch, hasState,
          hasArtifact, hasSource⟩, ?_, sameName ▸ signedName, same ▸ named⟩
        rw [hasClean]
        split at isClean
        · rfl
        · cases isClean
  | _ => cases hasState

/-- The source is the expected one, and its snapshot has a digest. -/
def IsTraceable (source : Json) (expected : Description) : Prop :=
  anyDiffers source expected.items = .ok false ∧
    ∃ digest, source.getOr "snapshot_sha256" (.string "") = .ok digest ∧
      isHexDigest digest = .ok true

theorem checkOrigin_of_isSigned
    {fields : List (String × Json)}
    {version : String}
    {source : Json}
    {expected : Description}
    (isSigned : IsSigned python request fields version source) :
    checkOrigin python request.inputName (some expected) false (.object fields) = .ok () ↔
      IsTraceable source expected := by
  have notNotarized : Json.equals (.string (macosBuild "signed").state) (.string "notarized") =
      false := rfl
  simp only [checkOrigin, item_of_lookup isSigned.recorded.source,
    item_of_lookup isSigned.recorded.distro, item_of_lookup isSigned.recorded.state,
    notNotarized, bind_eq_ok, refuse_eq_ok, Except.ok.injEq, exists_eq_left', Bool.false_eq_true,
    if_false, Bool.false_and, IsTraceable]
  constructor
  · rintro ⟨_, same, _, rfl, digest, has, _, isHex, _, isTrue, _⟩
    rw [Bool.not_eq_false'] at isTrue
    exact ⟨same, digest, has, isTrue ▸ isHex⟩
  · rintro ⟨same, digest, has, isHex⟩
    exact ⟨_, same, (), rfl, digest, has, _, isHex, (), rfl, (), trivial, rfl⟩

/-- What the record of the notarized package says about the signed one. -/
def signedInput (python : Python) (request : Request) (signed : Bundle) : Json :=
  .object
    [("artifact", .string request.inputName),
      ("metadata_sha256", .string (python.sha256 signed.metadata)),
      ("sha256", .string (python.sha256 signed.package))]

/-- The items of the record of the notarized package. -/
structure IsNotarized
    (python : Python)
    (request : Request)
    (version : String)
    (source : Json)
    (signed : Bundle)
    (notarizedAt : String)
    (items : List (String × Json)) :
    Prop where
  recorded : IsRecorded request.finalName (macosBuild "notarized") version source items
  signedInput : items.lookup "signed_input" = some (signedInput python request signed)
  notarizedAt : items.lookup "notarized_at_utc" = some (.string notarizedAt)

theorem isNotarized_finalItems
    {fields : List (String × Json)}
    {version : String}
    {source : Json}
    {digest : String}
    (isSigned : IsSigned python request fields version source) :
    IsNotarized python request version source signed notarizedAt
      (finalItems request (.object fields) notarizedAt (.string (python.sha256 signed.package))
        (python.sha256 signed.metadata) digest) := by
  have found : ∀ key, (finalItems request (.object fields) notarizedAt
      (.string (python.sha256 signed.package)) (python.sha256 signed.metadata) digest).lookup key =
        ([("sha256", Json.string digest), ("artifact", Json.string request.finalName)] ++
          ([("signed_input", signedInput python request signed),
            ("notarized_at_utc", Json.string notarizedAt),
            ("state", Json.string "notarized")] ++ fields)).lookup key := by
    intro key
    simp only [finalItems, notarizedItems, lookup_setFields, List.lookup_append, Json.items]
    rfl
  obtain ⟨schemaVersion, hasVersion, distro, arch, _, _, hasSource⟩ := isSigned.recorded
  refine ⟨⟨?_, ?_, ?_, ?_, ?_, ?_, ?_⟩, ?_, ?_⟩ <;>
  · rw [found]
    simp [lookup_item, macosBuild, *]

section Notarized

variable {fields items : List (String × Json)} {version : String} {source : Json}
variable {expected : Description}

/-- The signed input is named with its digests. -/
theorem checkSignedInput_of_isNotarized
    (hexDigests : python.HexDigests)
    (dated : notarizedAt ≠ "")
    (signedName : artifactName python (.string version) (.string "darwin") (.string "arm64")
      (.string "signed") = .ok request.inputName)
    (isNotarized : IsNotarized python request version source signed notarizedAt items) :
    checkSignedInput python request.finalName (.object items) = .ok () := by
  have named : Json.getOr (.object items) "signed_input" (.object []) =
      .ok (signedInput python request signed) := by
    rw [Json.getOr, isNotarized.signedInput, Option.getD_some]
  have isDated : Json.get (.object items) "notarized_at_utc" = .ok (.string notarizedAt) := by
    rw [Json.get, Json.getOr, isNotarized.notarizedAt, Option.getD_some]
  have truthy : Json.isTruthy (.string notarizedAt) = true := by
    simpa [Json.isTruthy] using dated
  have artifact : (signedInput python request signed).get "artifact" =
      .ok (.string request.inputName) := rfl
  have package : (signedInput python request signed).getOr "sha256" (.string "") =
      .ok (.string (python.sha256 signed.package)) := rfl
  have metadata : (signedInput python request signed).getOr "metadata_sha256" (.string "") =
      .ok (.string (python.sha256 signed.metadata)) := rfl
  simp only [checkSignedInput, named, item_of_lookup isNotarized.recorded.version, signedName,
    artifact, package, metadata, hexDigests signed.package, hexDigests signed.metadata, isDated,
    truthy, Json.equals_self, bind_eq_ok, refuse_eq_ok, Except.ok.injEq, exists_eq_left',
    Bool.not_true, exists_const, and_self]

theorem checkOrigin_of_isNotarized
    (hexDigests : python.HexDigests)
    (dated : notarizedAt ≠ "")
    (isSigned : IsSigned python request fields version source)
    (isNotarized : IsNotarized python request version source signed notarizedAt items) :
    checkOrigin python request.finalName (some expected) true (.object items) = .ok () ↔
      IsTraceable source expected := by
  have isState : Json.equals (.string (macosBuild "notarized").state) (.string "notarized") =
      true := rfl
  simp only [checkOrigin, item_of_lookup isNotarized.recorded.source,
    item_of_lookup isNotarized.recorded.distro, item_of_lookup isNotarized.recorded.state,
    isState, isSigned.isClean, checkSignedInput_of_isNotarized hexDigests dated
      isSigned.signedName isNotarized, bind_eq_ok, refuse_eq_ok, Except.ok.injEq,
    exists_eq_left', if_true, Bool.not_true, Bool.and_false, IsTraceable]
  constructor
  · rintro ⟨_, _, _, same, _, rfl, digest, has, _, isHex, _, isTrue, _⟩
    rw [Bool.not_eq_false'] at isTrue
    exact ⟨same, digest, has, isTrue ▸ isHex⟩
  · rintro ⟨same, digest, has, isHex⟩
    exact ⟨(), trivial, _, same, (), rfl, digest, has, _, isHex, (), rfl, (), trivial, trivial⟩

/-- The signed package is accepted for its own version and source. -/
theorem signed_accepted_iff
    {directory : Directory}
    {location wanted : String}
    (isSigned : IsSigned python request fields version source)
    (genuine : signed.Genuine python request.inputName none none false (.object fields))
    (holds : ∀ role : Role, directory.lookup (role.nameOf request.inputName) =
      some (.file (signed.content role))) :
    (∃ record, readRecord python ⟨directory, location, request.inputName⟩ (some expected)
        (some wanted) false = .ok record) ↔
      wanted = version ∧ IsTraceable source expected := by
  have held : ArtifactPath.Holds ⟨directory, location, request.inputName⟩ signed :=
    ArtifactPath.holds_iff.mpr holds
  have identity := @checkIdentity_of_isRecorded python _ _ _ _ _ (some wanted) isSigned.recorded
    isSigned.signedName
  simp only [readRecord_eq_ok]
  constructor
  · rintro ⟨record, bundle, other, accepted⟩
    obtain rfl := held.unique other
    obtain rfl := Option.some.inj (genuine.parsed.symm.trans accepted.parsed)
    exact ⟨identity.mp accepted.identity wanted rfl,
      (checkOrigin_of_isSigned isSigned).mp accepted.origin⟩
  · rintro ⟨rfl, traceable⟩
    refine ⟨_, signed, held, genuine.parsed, identity.mpr ?_, genuine.digest, genuine.line,
      (checkOrigin_of_isSigned isSigned).mpr traceable⟩
    rintro other ⟨⟩
    rfl

/-- The notarized package is accepted for the version and the source of the signed one. -/
theorem notarized_accepted_iff
    {directory : Directory}
    {location wanted : String}
    {bundle : Bundle}
    (hexDigests : python.HexDigests)
    (noReturn : python.isDecimal '\r' = false)
    (dated : notarizedAt ≠ "")
    (isSigned : IsSigned python request fields version source)
    (metadata : python.encode (python.dumps (.object (finalItems request (.object fields)
      notarizedAt (.string (python.sha256 signed.package)) (python.sha256 signed.metadata)
      (python.sha256 bundle.package))) ++ "\n") = some bundle.metadata)
    (readsBack : python.ReadsBack (.object (finalItems request (.object fields) notarizedAt
      (.string (python.sha256 signed.package)) (python.sha256 signed.metadata)
      (python.sha256 bundle.package))))
    (line : python.encode (checksumLine (python.sha256 bundle.package) request.finalName) =
      some bundle.checksum)
    (holds : ∀ role : Role, directory.lookup (role.nameOf request.finalName) =
      some (.file (bundle.content role))) :
    (∃ record, readRecord python ⟨directory, location, request.finalName⟩ (some expected)
        (some wanted) true = .ok record) ↔
      wanted = version ∧ IsTraceable source expected := by
  have held : ArtifactPath.Holds ⟨directory, location, request.finalName⟩ bundle :=
    ArtifactPath.holds_iff.mpr holds
  have isNotarized := @isNotarized_finalItems python request signed notarizedAt fields version
    source (python.sha256 bundle.package) isSigned
  have identity := @checkIdentity_of_isRecorded python _ _ _ _ _ (some wanted)
    isNotarized.recorded isSigned.finalName
  have origin := @checkOrigin_of_isNotarized python request signed notarizedAt fields _ version
    source expected hexDigests dated isSigned isNotarized
  have parsed := python.jsonOf_of_encode metadata readsBack
  have plain := carriageReturn_notMem_artifactName noReturn isSigned.finalName
  have lineRead := python.textOf_of_encode line
    (carriageReturn_notMem_checksumLine hexDigests plain bundle.package)
  have digest : Json.item (.object (finalItems request (.object fields) notarizedAt
      (.string (python.sha256 signed.package)) (python.sha256 signed.metadata)
      (python.sha256 bundle.package))) "sha256" = .ok (.string (python.sha256 bundle.package)) := by
    refine item_of_lookup ?_
    rw [finalItems, lookup_setFields]
    rfl
  simp only [readRecord_eq_ok]
  constructor
  · rintro ⟨record, other, otherHeld, accepted⟩
    obtain rfl := held.unique otherHeld
    obtain rfl := Option.some.inj (parsed.symm.trans accepted.parsed)
    exact ⟨identity.mp accepted.identity wanted rfl, origin.mp accepted.origin⟩
  · rintro ⟨rfl, traceable⟩
    refine ⟨_, bundle, held, parsed, identity.mpr ?_, digest, lineRead, origin.mpr traceable⟩
    rintro other ⟨⟩
    rfl

end Notarized

/-- A notarization that has succeeded leaves a package that a release accepts for exactly the
version and the source for which `read_record` accepts the signed package. -/
theorem notarized_package_accepted_iff
    {trace : List (Event Call Answer)}
    {expected : Description}
    {version signedLocation finalLocation : String}
    {signedDirectory finalDirectory : Directory}
    (hexDigests : python.HexDigests)
    (noReturn : python.isDecimal '\r' = false)
    (begins : start.Begins)
    (fresh : ∀ role, start.files (.final role) = none)
    (executes : Executes (serving python request) (notarize python request) start trace
      (.done (.ok ())) world)
    (readsBack : ∀ bundle signed record, Endorsed python request start world bundle signed record ->
      python.ReadsBack (.object (finalItems request record start.now
        (.string (python.sha256 signed.package)) (python.sha256 signed.metadata)
        (python.sha256 bundle.package))))
    (signedFiles : ∀ role : Role, signedDirectory.lookup (role.nameOf request.inputName) =
      world.files (.input role))
    (finalFiles : ∀ role : Role, finalDirectory.lookup (role.nameOf request.finalName) =
      world.files (.final role)) :
    (∃ record, readRecord python ⟨finalDirectory, finalLocation, request.finalName⟩
        (some expected) (some version) true = .ok record) ↔
      ∃ record, readRecord python ⟨signedDirectory, signedLocation, request.inputName⟩
        (some expected) (some version) false = .ok record := by
  obtain ⟨_, bundle, complete⟩ := ((leads_notarize begins).executes executes).2 _ rfl () rfl
  obtain ⟨signed, record, endorsed⟩ := complete.endorsed
  obtain ⟨fields, _, source, rfl, isSigned⟩ := exists_isSigned endorsed.genuine endorsed.checked
  have signedHeld (role : Role) : signedDirectory.lookup (role.nameOf request.inputName) =
      some (.file (signed.content role)) := by
    rw [signedFiles, complete.input, endorsed.input]
  have finalHeld (role : Role) : finalDirectory.lookup (role.nameOf request.finalName) =
      some (.file (bundle.content role)) := by
    rw [finalFiles, complete.final, fresh, overwritten]
  rw [signed_accepted_iff isSigned endorsed.genuine signedHeld,
    notarized_accepted_iff hexDigests noReturn begins.dated isSigned endorsed.metadata
      (readsBack _ _ _ endorsed) complete.line finalHeld]

/-! ## A notarization can succeed -/

/-- There is an execution that ends with a value. -/
def Runs (python : Python) (request : Request) (program : Routine α) (world : World) (value : α)
    (after : World) : Prop :=
  ∃ trace, Executes (serving python request) program world trace (.done (.ok value)) after

theorem Runs.bind
    {program : Routine α}
    {next : α -> Routine β}
    {middle after : World}
    {value : α}
    {result : β}
    (runs : Runs python request program world value middle)
    (continues : Runs python request (next value) middle result after) :
    Runs python request (program >>= next) world result after := by
  obtain ⟨first, executes⟩ := runs
  obtain ⟨second, continues⟩ := continues
  exact ⟨_, executes.bind continues⟩

theorem runs_lift
    {result : Except Exception α}
    {value : α}
    (succeeds : result = .ok value) :
    Runs python request (lift result) world value world := by
  subst succeeds
  exact ⟨[], .refl _ _⟩

theorem runs_ask
    {call : Call}
    {answer : Answer call}
    {returned : Answer call -> Except Exception α}
    {value : α}
    {after : World}
    (served : serving python request world call answer after)
    (succeeds : returned answer = .ok value) :
    Runs python request (ask call returned) world value after := by
  refine ⟨[⟨call, answer⟩], .call served ?_⟩
  rw [succeeds]
  exact .refl _ _

theorem runs_copy
    {source target : Place}
    {content : Bytes}
    (file : world.files source = some (.file content)) :
    Runs python request (ask (.copy source target) id) world () (world.write target content) := by
  have served : serving python request world (.copy source target) (.ok ())
      (world.write target content) := ⟨content, by rw [file, contentOf], rfl⟩
  exact runs_ask served rfl

theorem runs_digest
    {place : Place}
    {content : Bytes}
    (file : world.files place = some (.file content)) :
    Runs python request (ask (.digest place) id) world (python.sha256 content) world := by
  have served : serving python request world (.digest place) (.ok (python.sha256 content)) world :=
    ⟨rfl, content, by rw [file, contentOf], rfl⟩
  exact runs_ask served rfl

theorem runs_writeText
    {place : Place}
    {text : String}
    {content : Bytes}
    (encoded : python.encode text = some content) :
    Runs python request (ask (.writeText place text) id) world () (world.write place content) := by
  have served : serving python request world (.writeText place text) (.ok ())
      (world.write place content) := ⟨content, encoded, rfl⟩
  exact runs_ask served rfl

theorem runs_checkAbsent
    (roles : List Role)
    (absent : ∀ role, isPresent (world.files (.final role)) = false) :
    Runs python request (checkAbsent roles) world () world := by
  induction roles with
  | nil => exact runs_lift rfl
  | cons role rest inductionHypothesis =>
      have served : serving python request world (.exists (.final role)) false world :=
        ⟨rfl, (absent role).symm⟩
      exact (runs_ask served rfl).bind inductionHypothesis

/-- A command succeeds, and the candidate is as it was unless a ticket was attached to it. -/
theorem runs_command
    {arguments : List String}
    {content : Bytes}
    (handles : world.files (.candidate .package) = some (.file content) ∨
      isStaple arguments = true) :
    Runs python request (ask (.command arguments) id) world ()
      ((world.put (.candidate .package) (some (.file content))).pass [arguments]
        (world.files (.candidate .package))) := by
  have served : serving python request world (.command arguments) (.ok ())
      ((world.put (.candidate .package) (some (.file content))).pass [arguments]
        (world.files (.candidate .package))) :=
    ⟨_, ⟨_, handles.imp Eq.symm fun isStaple => ⟨isStaple, content, rfl⟩, rfl⟩, rfl⟩
  exact runs_ask served rfl

theorem World.put_self
    {place : Place}
    {node : Option Node}
    (found : world.files place = node) :
    world.put place node = world := by
  rw [← found, World.put, Function.update_eq_self]

/-- A command that only checks the candidate succeeds. -/
theorem runs_check
    {content : Bytes}
    (isCandidate : world.files (.candidate .package) = some (.file content))
    (arguments : List String) :
    Runs python request (ask (.command arguments) id) world ()
      (world.pass [arguments] (some (.file content))) := by
  have runs := @runs_command python request world arguments content (.inl isCandidate)
  rwa [World.put_self isCandidate, isCandidate] at runs

/-- The candidate is submitted, and a ticket is attached to it. -/
theorem runs_submission
    {content : Bytes}
    (isCandidate : world.files (.candidate .package) = some (.file content))
    (stapled : Bytes) :
    ∃ after, Runs python request (runAll (submission request)) world () after ∧
      after.files = (world.put (.candidate .package) (some (.file stapled))).files := by
  have staples (world : World) := @runs_command python request world
    ["xcrun", "stapler", "staple", request.candidate] stapled (.inr rfl)
  have checks (passed : List (List String × Option Node)) (arguments : List String) :=
    @runs_check python request { world with passed } content isCandidate arguments
  exact ⟨_, (checks _ _).bind ((checks _ _).bind ((staples _).bind (runs_lift rfl))), rfl⟩

theorem runs_validation
    {content : Bytes}
    (isCandidate : world.files (.candidate .package) = some (.file content)) :
    ∃ after, Runs python request (runAll (validation request)) world () after ∧
      after.files = world.files := by
  have checks (passed : List (List String × Option Node)) (arguments : List String) :=
    @runs_check python request { world with passed } content isCandidate arguments
  exact ⟨_, (checks _ _).bind ((checks _ _).bind ((checks _ _).bind (runs_lift rfl))), rfl⟩

/-- The candidate gets its record and its checksum. -/
theorem runs_recordCandidate
    {signed : Bundle}
    {package line : Bytes}
    {record : Json}
    (recorded : record.item "sha256" = .ok (.string (python.sha256 signed.package)))
    (isMetadata : world.files (.input .metadata) = some (.file signed.metadata))
    (isPackage : world.files (.candidate .package) = some (.file package))
    (lineEncoded : python.encode (checksumLine (python.sha256 package) request.finalName) =
      some line) :
    ∃ metadata, Runs python request (recordCandidate python request record) world ()
      ((world.write (.candidate .metadata) metadata).write (.candidate .checksum) line) := by
  obtain ⟨metadata, encoded⟩ := python.encode_dumps (.object (finalItems request record world.now
    (.string (python.sha256 signed.package)) (python.sha256 signed.metadata)
    (python.sha256 package)))
  have dates : Runs python request (ask .now .ok : Routine String) world world.now world := by
    have served : serving python request world .now world.now world := ⟨rfl, rfl⟩
    exact runs_ask served rfl
  refine ⟨metadata, dates.bind ((runs_lift recorded).bind ((runs_digest isMetadata).bind
    ((runs_digest isPackage).bind ((runs_writeText encoded).bind ?_))))⟩
  exact runs_writeText lineEncoded

/-- The files of the candidate are copied to the final names. -/
theorem runs_copyOut
    {bundle : Bundle}
    (candidate : world.Holds .candidate bundle) :
    Runs python request (copyOut [.package, .metadata, .checksum]) world ()
      (((world.write (.final .package) bundle.package).write (.final .metadata)
        bundle.metadata).write (.final .checksum) bundle.checksum) := by
  have isMetadata : (world.write (.final .package) bundle.package).files (.candidate .metadata) =
      some (.file bundle.metadata) := by
    rw [World.write_files, if_neg (by simp)]
    exact candidate .metadata
  have isChecksum : ((world.write (.final .package) bundle.package).write (.final .metadata)
      bundle.metadata).files (.candidate .checksum) = some (.file bundle.checksum) := by
    rw [World.write_files, if_neg (by simp), World.write_files, if_neg (by simp)]
    exact candidate .checksum
  exact (runs_copy (candidate .package)).bind ((runs_copy isMetadata).bind
    ((runs_copy isChecksum).bind (runs_lift rfl)))

/-- What happens in the work area succeeds. -/
theorem runs_produce
    {signed : Bundle}
    {record : Json}
    (begins : world.Begins)
    (input : world.Holds .input signed)
    (recorded : record.item "sha256" = .ok (.string (python.sha256 signed.package)))
    (stapled : Bytes)
    (encodes : ∃ line, python.encode (checksumLine (python.sha256 stapled) request.finalName) =
      some line)
    (noShaFile : request.shaFile = none) :
    ∃ after, Runs python request (produce python request record) world () after ∧
      after.files (.final .package) = overwritten stapled (world.files (.final .package)) := by
  obtain ⟨line, lineEncoded⟩ := encodes
  have copied : (world.write (.candidate .package) signed.package).files (.candidate .package) =
      some (.file signed.package) := by
    rw [World.write_files, if_pos rfl, begins.candidate, overwritten]
  obtain ⟨submitted, submits, submittedFiles⟩ :=
    @runs_submission python request _ _ copied stapled
  have isStapled : submitted.files (.candidate .package) = some (.file stapled) := by
    rw [submittedFiles, World.put_files, if_pos rfl]
  obtain ⟨validated, validates, files⟩ := @runs_validation python request _ _ isStapled
  have others (place : Place) (apart : place ≠ .candidate .package) :
      validated.files place = world.files place := by
    rw [files, submittedFiles, World.put_files, if_neg apart, World.write_files, if_neg apart]
  have isMetadata : validated.files (.input .metadata) = some (.file signed.metadata) := by
    rw [others _ (by simp)]
    exact input .metadata
  rw [← files] at isStapled
  obtain ⟨metadata, records⟩ :=
    runs_recordCandidate recorded isMetadata isStapled lineEncoded
  let recorded :=
    (validated.write (.candidate .metadata) metadata).write (.candidate .checksum) line
  have candidate : recorded.Holds .candidate ⟨stapled, metadata, line⟩ := by
    rintro (_ | _ | _)
    · simpa [recorded, World.write_files, Bundle.content] using isStapled
    · simp [recorded, World.write_files, others, begins.candidate, overwritten, Bundle.content]
    · simp [recorded, World.write_files, others, begins.candidate, overwritten, Bundle.content]
  have copies := @runs_copyOut python request _ _ candidate
  have writes (world : World) : Runs python request (writeShaFile request) world () world := by
    rw [writeShaFile, noShaFile]
    exact runs_lift rfl
  refine ⟨_, (runs_copy (input .package)).bind (submits.bind (validates.bind (records.bind
    (copies.bind (writes _))))), ?_⟩
  simp [recorded, World.write_files, others]

/-- A signed package can be notarized under a final name that is free, whatever the ticket makes
of it. -/
theorem exists_notarization
    {signed : Bundle}
    {record : Json}
    (begins : start.Begins)
    (absent : ∀ role, isPresent (start.files (.final role)) = false)
    (input : start.Holds .input signed)
    (genuine : signed.Genuine python request.inputName none none false record)
    (checked : checkRecord python request record = .ok ())
    (apart : request.isSame = false)
    (stapled : Bytes)
    (encodes : ∃ line, python.encode (checksumLine (python.sha256 stapled) request.finalName) =
      some line)
    (noShaFile : request.shaFile = none) :
    ∃ trace world, Executes (serving python request) (notarize python request) start trace
        (.done (.ok ())) world ∧
      world.files (.final .package) = overwritten stapled (start.files (.final .package)) := by
  have reads : Runs python request (ask .readRecord id) start record start := by
    have served : serving python request start .readRecord (.ok record) start :=
      ⟨rfl, signed, input, genuine⟩
    exact runs_ask served rfl
  have isFresh : Runs python request (checkFresh request) start () start := by
    rw [checkFresh, apart]
    exact runs_checkAbsent _ absent
  have allowed : checkShaFile request = .ok () := by
    rw [checkShaFile, noShaFile]
    rfl
  have prepares (call : Call) (returned : Answer call -> Except Exception Unit)
      (answer : Answer call) (served : serving python request start call answer start)
      (succeeds : returned answer = .ok ()) :
      Runs python request (ask call returned) start () start := runs_ask served succeeds
  obtain ⟨after, ⟨trace, produces⟩, final⟩ :=
    @runs_produce python request start signed record begins input genuine.digest stapled encodes
      noShaFile
  have cleans : Runs python request (ask .removeWork id) after () after := by
    have served : serving python request after .removeWork (.ok ()) after :=
      ⟨rfl, rfl, fun _ _ => rfl⟩
    exact runs_ask served rfl
  obtain ⟨cleaning, cleans⟩ := cleans
  have ensures : Runs python request
      ((produce python request record).ensuring (ask .removeWork id)) start () after :=
    ⟨_, produces.ensuring cleans⟩
  have runs : Runs python request (notarize python request) start () after :=
    reads.bind ((runs_lift checked).bind (isFresh.bind ((runs_lift allowed).bind
      ((prepares .makeParent id (.ok ()) rfl rfl).bind
        ((prepares .stage id (.ok ()) rfl rfl).bind ensures)))))
  obtain ⟨trace, executes⟩ := runs
  exact ⟨trace, after, executes, final⟩

end Rules

end Notarization

/-! ## A sample notarization -/

namespace Notarization
namespace SampleNotarization

open Codec (Bytes)
open Effect Effect.Program
open SampleRelease (unlines utf8)

def signedDigest : String := "4a3cdfae6f291c8f544daea5b72905cf9e74c1ed427d831ad0d7ca00c73c794d"

def stapledDigest : String := "727f68621cd584a5e42bc60a80f12d1f51c2aecd469da90e32a3f0bae8ebf7f5"

def metadataDigest : String := "b8161f34b744404a35f819795e4e780395a15f4db51220418d725ddb2bbacbf8"

/-- The lines about the builder, in both records. -/
def builderLines : List String :=
  ["  \"builder\": \x7b",
    "    \"arch\": \"arm64\",",
    "    \"os\": \"Darwin\"",
    "  \x7d,",
    "  \"built_at_utc\": \"2026-01-03T00:00:00Z\",",
    "  \"distro\": \"darwin\","]

def signedText : String :=
  unlines
    (["\x7b",
      "  \"arch\": \"arm64\",",
      "  \"artifact\": \"macos-auth-0.1.2-darwin-arm64-signed.pkg\","] ++
      builderLines ++
      ["  \"schema_version\": 1,",
        "  \"sha256\": \"4a3cdfae6f291c8f544daea5b72905cf9e74c1ed427d831ad0d7ca00c73c794d\","] ++
      SampleBuild.sourceLines ++
      ["  \"state\": \"signed\",",
        "  \"version\": \"0.1.2\""]) ++ "\x7d"

def notarizedText : String :=
  unlines
    (["\x7b",
      "  \"arch\": \"arm64\",",
      "  \"artifact\": \"macos-auth-0.1.2-darwin-arm64.pkg\","] ++
      builderLines ++
      ["  \"notarized_at_utc\": \"2026-01-04T00:00:00Z\",",
        "  \"schema_version\": 1,",
        "  \"sha256\": \"727f68621cd584a5e42bc60a80f12d1f51c2aecd469da90e32a3f0bae8ebf7f5\",",
        "  \"signed_input\": \x7b",
        "    \"artifact\": \"macos-auth-0.1.2-darwin-arm64-signed.pkg\",",
        "    \"metadata_sha256\": \"b8161f34b744404a35f819795e4e780395a15f4db51220418d725ddb2bbacbf8\",",
        "    \"sha256\": \"4a3cdfae6f291c8f544daea5b72905cf9e74c1ed427d831ad0d7ca00c73c794d\"",
        "  \x7d,"] ++
      SampleBuild.sourceLines ++
      ["  \"state\": \"notarized\",",
        "  \"version\": \"0.1.2\""]) ++ "\x7d"

def signedPackageName : String := "macos-auth-0.1.2-darwin-arm64-signed.pkg"

def builder : Json := .object [("arch", .string "arm64"), ("os", .string "Darwin")]

def signedRecord : Json :=
  .object
    [("arch", .string "arm64"),
      ("artifact", .string signedPackageName),
      ("builder", builder),
      ("built_at_utc", .string "2026-01-03T00:00:00Z"),
      ("distro", .string "darwin"),
      ("schema_version", .number 1),
      ("sha256", .string signedDigest),
      ("source", SampleBuild.source),
      ("state", .string "signed"),
      ("version", .string "0.1.2")]

def notarizedRecord : Json :=
  .object
    [("arch", .string "arm64"),
      ("artifact", .string SampleRelease.packageName),
      ("builder", builder),
      ("built_at_utc", .string "2026-01-03T00:00:00Z"),
      ("distro", .string "darwin"),
      ("notarized_at_utc", .string "2026-01-04T00:00:00Z"),
      ("schema_version", .number 1),
      ("sha256", .string stapledDigest),
      ("signed_input", .object
        [("artifact", .string signedPackageName),
          ("metadata_sha256", .string metadataDigest),
          ("sha256", .string signedDigest)]),
      ("source", SampleBuild.source),
      ("state", .string "notarized"),
      ("version", .string "0.1.2")]

/-- The digests of the sample files, which differ in their lengths. -/
def sha256 (content : Bytes) : String :=
  match content.length with
  | 6 => signedDigest
  | 7 => stapledDigest
  | 710 => metadataDigest
  | _ => SampleRelease.packageDigest

def loads (text : String) : Option Json :=
  if text = signedText ++ "\n" then some signedRecord
  else if text = notarizedText ++ "\n" then some notarizedRecord
  else none

/-- `json.dumps` for the two records. -/
def dumps (value : Json) : String :=
  if (value.items.lookup "signed_input").isSome then notarizedText else signedText

theorem carriageReturn_notMem_dumps (value : Json) : '\r' ∉ (dumps value).toList := by
  rw [dumps]
  split
  · exact SampleRelease.carriageReturn_notMem (by decide +kernel)
  · exact SampleRelease.carriageReturn_notMem (by decide +kernel)

def python : Python where
  decode := SampleRelease.decode
  encode text := some (utf8 text)
  loads := loads
  dumps := dumps
  sha256 := sha256
  isDecimal := Char.isDigit
  str _ := ""
  decode_encode := SampleRelease.python.decode_encode
  encode_dumps _ := ⟨_, rfl⟩
  dumps_plain := carriageReturn_notMem_dumps

def request : Request where
  inputName := signedPackageName
  finalName := SampleRelease.packageName
  isSame := false
  candidate := "/out/.macos-auth-stage-0/macos-auth-0.1.2-darwin-arm64.pkg"
  profile := "notary"
  shaFile := none

/-- The signed package, with the bytes `signed`. -/
def signed : Bundle where
  package := [115, 105, 103, 110, 101, 100]
  metadata := utf8 (signedText ++ "\n")
  checksum := utf8 (checksumLine signedDigest signedPackageName)

/-- The package with its ticket, which are the bytes `stapled`. -/
def stapled : Bytes := [115, 116, 97, 112, 108, 101, 100]

def start : World where
  files place :=
    match place with
    | .input role => some (.file (signed.content role))
    | _ => none
  passed := []
  now := "2026-01-04T00:00:00Z"

theorem start_begins : start.Begins := ⟨fun _ => rfl, rfl, by decide⟩

theorem hexDigests : python.HexDigests := by
  intro content
  change isHexDigest (.string (sha256 content)) = .ok true
  unfold sha256
  split <;> rfl

theorem python_dumps (value : Json) : python.dumps value = dumps value := rfl

theorem python_loads (text : String) : python.loads text = loads text := rfl

theorem loads_signedText : loads (signedText ++ "\n") = some signedRecord := by
  rw [loads, if_pos rfl]

theorem loads_notarizedText : loads (notarizedText ++ "\n") = some notarizedRecord := by
  have apart : notarizedText ++ "\n" ≠ signedText ++ "\n" := by
    intro same
    have sizes := congrArg String.utf8ByteSize same
    revert sizes
    decide +kernel
  rw [loads, if_neg apart, if_pos rfl]

theorem readsBack_signedRecord : python.ReadsBack signedRecord := by
  rw [Python.ReadsBack, python_dumps, dumps, if_neg (by decide), python_loads, loads_signedText]

theorem readsBack_notarizedRecord : python.ReadsBack notarizedRecord := by
  rw [Python.ReadsBack, python_dumps, dumps, if_pos (by decide), python_loads,
    loads_notarizedText]

theorem length_signedText : (utf8 (signedText ++ "\n")).length = 710 := by
  decide +kernel

theorem digest_signedText : python.sha256 signed.metadata = metadataDigest := by
  change sha256 (utf8 (signedText ++ "\n")) = metadataDigest
  rw [sha256, length_signedText]
  rfl

theorem jsonOf_signedText : python.jsonOf signed.metadata = some signedRecord := by
  refine Python.jsonOf_of_encode python ?_ readsBack_signedRecord
  rw [python_dumps, dumps, if_neg (by decide)]
  rfl

theorem signed_isGenuine :
    signed.Genuine python request.inputName none none false signedRecord where
  parsed := jsonOf_signedText
  identity := by rfl
  digest := by rfl
  line := by
    refine Python.textOf_of_encode python rfl ?_
    exact SampleRelease.carriageReturn_notMem (by decide +kernel)
  origin := by rfl

theorem checkRecord_signedRecord : checkRecord python request signedRecord = .ok () := by
  rfl

/-- The sample package can be notarized. -/
theorem exists_execution :
    ∃ trace world, Executes (serving python request) (notarize python request) start trace
        (.done (.ok ())) world ∧
      world.files (.final .package) = some (.file stapled) :=
  exists_notarization start_begins (fun _ => rfl) (fun _ => rfl) signed_isGenuine
    checkRecord_signedRecord rfl stapled ⟨_, rfl⟩ rfl

/-- Only the package that was checked is endorsed. -/
theorem package_of_endorsed
    {world : World}
    {bundle found signed' signed'' : Bundle}
    {record record' : Json}
    (endorsed : Endorsed python request start world bundle signed' record)
    (other : Endorsed python request start world found signed'' record') :
    bundle.package = found.package := by
  have same := endorsed.passed.symm.trans other.passed
  have validated := (List.append_inj same (by simp)).2
  simpa [validation] using validated

theorem readsBack_of_endorsed
    {world : World}
    {bundle found signed' : Bundle}
    {record : Json}
    (final : world.files (.final .package) = some (.file stapled))
    (complete : Complete python request start world found)
    (endorsed : Endorsed python request start world bundle signed' record) :
    python.ReadsBack (.object (finalItems request record start.now
      (.string (python.sha256 signed'.package)) (python.sha256 signed'.metadata)
      (python.sha256 bundle.package))) := by
  obtain ⟨signed'', record', other⟩ := complete.endorsed
  have isFound : found.package = stapled := by
    have written := complete.final .package
    rw [final] at written
    exact (Node.file.inj (Option.some.inj written)).symm
  have isStapled : bundle.package = stapled := (package_of_endorsed endorsed other).trans isFound
  have package : signed.package = signed'.package :=
    Node.file.inj (Option.some.inj (endorsed.input .package))
  have metadata : signed.metadata = signed'.metadata :=
    Node.file.inj (Option.some.inj (endorsed.input .metadata))
  have parsed := endorsed.genuine.parsed
  rw [← metadata, jsonOf_signedText, Option.some.injEq] at parsed
  rw [isStapled, ← package, ← metadata, ← parsed, digest_signedText]
  exact readsBack_notarizedRecord

/-- There is a directory with the files of a package. -/
theorem exists_directory (name : String) (bundle : Bundle) :
    ∃ directory : Directory, ∀ role : Role,
      directory.lookup (role.nameOf name) = some (.file (bundle.content role)) := by
  obtain ⟨notMetadata, notChecksum, apart⟩ := names_apart name
  refine ⟨AList.insert name (.file bundle.package)
    (AList.insert (metadataName name) (.file bundle.metadata)
      (AList.insert (checksumName name) (.file bundle.checksum) ∅)), ?_⟩
  rintro (_ | _ | _)
  · exact AList.lookup_insert _
  · rw [Role.nameOf, AList.lookup_insert_ne notMetadata.symm, AList.lookup_insert]
    rfl
  · rw [Role.nameOf, AList.lookup_insert_ne notChecksum.symm,
      AList.lookup_insert_ne apart.symm, AList.lookup_insert]
    rfl

theorem signed_isAccepted
    {directory : Directory}
    (holds : ∀ role : Role, directory.lookup (role.nameOf request.inputName) =
      some (.file (signed.content role))) :
    ∃ record, readRecord python ⟨directory, "/stage", request.inputName⟩
      (some SampleRelease.source) (some "0.1.2") false = .ok record := by
  refine ⟨signedRecord, readRecord_eq_ok.mpr ⟨signed, ArtifactPath.holds_iff.mpr holds, ?_⟩⟩
  exact { signed_isGenuine with identity := by rfl, origin := by rfl }

end SampleNotarization

open SampleNotarization in
theorem notarization_leaves_intact_sample :
    ∃ world, world.files (.final .package) = some (.file stapled) ∧
      Intact python request start world := by
  obtain ⟨_, world, executes, final⟩ := exists_execution
  exact ⟨world, final, notarization_leaves_intact start_begins executes⟩

open SampleNotarization in
theorem notarized_package_accepted_sample :
    ∃ directory : Directory,
      directory.lookup SampleRelease.packageName = some (.file stapled) ∧
      ∃ record, readRecord python ⟨directory, "/out", SampleRelease.packageName⟩
        (some SampleRelease.source) (some "0.1.2") true = .ok record := by
  obtain ⟨_, world, executes, final⟩ := exists_execution
  obtain ⟨_, found, complete⟩ := ((leads_notarize start_begins).executes executes).2 _ rfl () rfl
  obtain ⟨signedDirectory, signedHeld⟩ := exists_directory request.inputName signed
  obtain ⟨finalDirectory, finalHeld⟩ := exists_directory request.finalName found
  have signedFiles (role : Role) : signedDirectory.lookup (role.nameOf request.inputName) =
      world.files (.input role) := (signedHeld role).trans (complete.input role).symm
  have finalFiles (role : Role) : finalDirectory.lookup (role.nameOf request.finalName) =
      world.files (.final role) := (finalHeld role).trans (complete.final role).symm
  refine ⟨finalDirectory, (finalFiles .package).trans final, ?_⟩
  exact (notarized_package_accepted_iff hexDigests rfl start_begins (fun _ => rfl) executes
    (fun _ _ _ => readsBack_of_endorsed final complete) signedFiles finalFiles).mpr
      (signed_isAccepted signedHeld)

end Notarization
end Release
end MacosAuth
