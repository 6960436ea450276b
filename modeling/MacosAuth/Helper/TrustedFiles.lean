import MacosAuth.Codec.Trimming
import MacosAuth.Helper.Request

/-!
# Files that pass the trust checks

A disk that does not change while it is read: directories, what `fstat` reports, and the
contents of files. On such a disk the walk to a path succeeds as soon as the checks along
the path do, and a text that is short enough is read whole, in whatever pieces it arrives.
-/

namespace MacosAuth
namespace Helper

open Codec
open Protocol (utf8)
open Effect Effect.Program

/-! ## Disks -/

structure Disk where
  root : File
  /-- The working directory of the process. -/
  workingDirectory : Bytes
  child : File -> Bytes -> Option File
  status : File -> Metadata
  contents : File -> Bytes

/-- Calls that read files. -/
def ReadsFiles : Call -> Prop
  | .currentDir => True
  | .openRoot => True
  | .openat _ _ _ => True
  | .fstat _ => True
  | .read _ _ _ => True
  | _ => False

namespace Disk

/-- The answer is that of the disk. Files are opened and read without errors, a read may
return less than it was asked for. -/
def Serves (disk : Disk) : HelperEvent -> Prop
  | ⟨.currentDir, answer⟩ => answer = .ok disk.workingDirectory
  | ⟨.openRoot, answer⟩ => answer = .ok disk.root
  | ⟨.openat directory name _, answer⟩ =>
      ∀ file, disk.child directory name = some file -> answer = .ok file
  | ⟨.fstat file, answer⟩ => answer = .ok (disk.status file)
  | ⟨.read file position limit, answer⟩ =>
      ∃ chunk, answer = .ok chunk ∧ chunk.val <+: (disk.contents file).drop position ∧
        (0 < limit -> chunk.val = [] -> (disk.contents file).drop position = [])
  | _ => True

/-- A part that only reads files, on this disk. It never gives up. -/
def reading (disk : Disk) : Contract Call Call.Answer where
  relies _ event := disk.Serves event
  allows _ request := ReadsFiles request
  givesUp _ := False

/-- The walk along the names, with the checks of every step. -/
def walk (disk : Disk) (rootOwned directory isPrivate : Bool) : File -> List Bytes -> Option File
  | file, [] => some file
  | file, component :: rest =>
      match disk.child file component with
      | none => none
      | some child =>
          if Trust.checkMetadata (disk.status child) rootOwned (!rest.isEmpty || directory)
              (rest.isEmpty && isPrivate) = .ok () then
            disk.walk rootOwned directory isPrivate child rest
          else
            none

/-- The path leads to the file and passes all trust checks. -/
structure Passes
    (disk : Disk)
    (path : Bytes)
    (rootOwned directory isPrivate : Bool)
    (file : File) : Prop where
  absolute : rootOwned = true -> isAbsolute path = true
  named : ∃ names, Trust.componentNames (pathComponents
      (if isAbsolute path then path else joinPath disk.workingDirectory path)) = .ok names ∧
    disk.walk rootOwned directory isPrivate disk.root names = some file
  root : Trust.checkMetadata (disk.status disk.root) rootOwned true false = .ok ()
  final : Trust.checkMetadata (disk.status file) rootOwned directory isPrivate = .ok ()

end Disk

/-- A part that only reads files adds only such calls. -/
theorem reading_calls
    {disk : Disk}
    {ε α : Type}
    {program : Routine ε α}
    {past : List HelperEvent}
    {post : List HelperEvent -> Except ε α -> Prop}
    (meets : program.Meets disk.reading past post) :
    program.Meets disk.reading past fun later result => post later result ∧
      ∀ event ∈ later, event ∈ past ∨ ReadsFiles event.call := by
  induction program generalizing past with
  | done result => exact ⟨meets, fun event member => .inl member⟩
  | call request next inductionHypothesis =>
      refine ⟨meets.1, fun answer served => ?_⟩
      refine (inductionHypothesis answer (meets.2 answer served)).mono ?_
      rintro later result ⟨holds, calls⟩
      refine ⟨holds, fun event member => ?_⟩
      rcases calls event member with before | reads
      · rcases List.mem_append.mp before with earlier | now
        · exact .inl earlier
        · obtain rfl := List.mem_singleton.mp now
          exact .inr meets.1
      · exact .inr reads
  | exhausted => exact meets

/-! ## Opening -/

section Opening

variable {disk : Disk} {past : List HelperEvent} {rootOwned directory isPrivate : Bool}

theorem reading_validate
    {file : File}
    (checked : Trust.checkMetadata (disk.status file) rootOwned directory isPrivate = .ok ()) :
    (Trust.validate file rootOwned directory isPrivate).Meets disk.reading past
      fun _ result => result = .ok () := by
  unfold Trust.validate
  rw [meets_perform_bind]
  refine ⟨trivial, fun answer served => ?_⟩
  obtain rfl : answer = .ok (disk.status file) := served
  exact checked

theorem reading_descend
    {names : List Bytes}
    {file result : File}
    (walks : disk.walk rootOwned directory isPrivate file names = some result) :
    (Trust.descend rootOwned directory isPrivate file names).Meets disk.reading past
      fun _ outcome => outcome = .ok result := by
  induction names generalizing file past with
  | nil =>
      obtain rfl := Option.some.inj walks
      exact rfl
  | cons component rest inductionHypothesis =>
      unfold Disk.walk at walks
      split at walks
      · exact absurd walks (by simp)
      · rename_i child found
        split at walks
        · rename_i checked
          unfold Trust.descend
          rw [meets_perform_bind]
          refine ⟨trivial, fun answer served => ?_⟩
          obtain rfl : answer = .ok child := served child found
          change (Trust.validate child rootOwned _ _ >>= _).Meets _ _ _
          refine Meets.bind (reading_validate checked) ?_ fun _ _ failed => absurd failed (by simp)
          exact fun _ _ _ => inductionHypothesis walks
        · exact absurd walks (by simp)

/-- A path that passes the checks is opened. -/
theorem reading_openPath
    {path : Bytes}
    {file : File}
    (passes : disk.Passes path rootOwned directory isPrivate file) :
    (Trust.openPath path rootOwned directory isPrivate).Meets disk.reading past
      fun _ result => result = .ok file := by
  obtain ⟨names, named, walks⟩ := passes.named
  have production : ¬((rootOwned && !isAbsolute path) = true) := by
    intro refused
    rw [Bool.and_eq_true, Bool.not_eq_true'] at refused
    exact absurd (passes.absolute refused.1) (by simp [refused.2])
  have locates : (Trust.absolutePath path).Meets disk.reading past fun _ result => result =
      .ok (if isAbsolute path then path else joinPath disk.workingDirectory path) := by
    unfold Trust.absolutePath
    split
    · rfl
    · rw [meets_perform_bind]
      refine ⟨trivial, fun answer served => ?_⟩
      obtain rfl : answer = .ok disk.workingDirectory := served
      exact rfl
  unfold Trust.openPath
  rw [if_neg production]
  refine Meets.bind locates ?_ fun _ _ failed => absurd failed (by simp)
  intro located path' equal
  obtain rfl := Except.ok.inj equal
  rw [named]
  change (perform Call.openRoot >>= _).Meets _ _ _
  rw [meets_perform_bind]
  refine ⟨trivial, fun answer served => ?_⟩
  obtain rfl : answer = .ok disk.root := served
  change (Trust.validate disk.root rootOwned true false >>= _).Meets _ _ _
  refine Meets.bind (reading_validate passes.root) ?_ fun _ _ failed => absurd failed (by simp)
  intro _ _ _
  refine Meets.bind (reading_descend walks) ?_ fun _ _ failed => absurd failed (by simp)
  intro _ reached equal
  obtain rfl := Except.ok.inj equal
  refine Meets.bind (reading_validate passes.final) ?_ fun _ _ failed => absurd failed (by simp)
  exact fun _ _ _ => rfl

end Opening

/-! ## Reading -/

section Reading

variable {disk : Disk} {past : List HelperEvent} {file : File}

/-- By induction over the reads: what has been gathered is the beginning of the file. -/
theorem reading_readUpTo
    {limit left : Nat}
    {gathered : Bytes}
    (enough : limit ≤ gathered.length + left)
    (short : gathered.length ≤ limit)
    (begins : gathered <+: disk.contents file) :
    (readUpTo file limit left gathered).Meets disk.reading past
      fun _ result => result = .ok ((disk.contents file).take limit) := by
  obtain ⟨rest, whole⟩ := begins
  have taken : (disk.contents file).take limit =
      gathered ++ rest.take (limit - gathered.length) := by
    rw [← whole, List.take_append, List.take_of_length_le short]
  induction left generalizing past gathered rest with
  | zero =>
      rw [taken, show limit - gathered.length = 0 by omega, List.take_zero, List.append_nil]
      exact rfl
  | succ left inductionHypothesis =>
      unfold readUpTo
      split
      · rw [taken, show limit - gathered.length = 0 by omega, List.take_zero, List.append_nil]
        exact rfl
      · rw [meets_perform_bind]
        refine ⟨trivial, fun answer served => ?_⟩
        obtain ⟨chunk, rfl, further, ending⟩ := served
        have remaining : (disk.contents file).drop gathered.length = rest := by
          rw [← whole, List.drop_left]
        rw [remaining] at further ending
        change (if chunk.val = [] then pure gathered
          else readUpTo file limit left (gathered ++ chunk.val)).Meets _ _ _
        split
        · rename_i empty
          have finished : rest = [] := ending (by omega) empty
          rw [taken, finished, List.take_nil, List.append_nil]
          exact rfl
        · rename_i nonempty
          have progress : 0 < chunk.val.length := List.length_pos_iff.mpr nonempty
          have bounded := chunk.property
          obtain ⟨others, rfl⟩ := further
          have length : (gathered ++ chunk.val).length = gathered.length + chunk.val.length :=
            List.length_append
          have longer : gathered ++ chunk.val ++ others = disk.contents file := by
            rw [← whole, List.append_assoc]
          refine inductionHypothesis (by omega) (by omega) others longer ?_
          rw [← longer, List.take_append, List.take_of_length_le (by omega)]

/-- What `read_to_string` makes of the beginning of a file. -/
theorem reading_readToString
    (limit : Nat) :
    (readToString file limit).Meets disk.reading past fun _ result =>
      result = (decodeUtf8 ((disk.contents file).take limit)).elim (.error .notUtf8) .ok := by
  unfold readToString
  refine Meets.bind (reading_readUpTo (Nat.le_add_left _ _) (Nat.zero_le _)
    (List.nil_prefix)) ?_ fun _ _ failed => absurd failed (by simp)
  intro _ bytes equal
  obtain rfl := Except.ok.inj equal
  cases decodeUtf8 ((disk.contents file).take limit) with
  | none => exact rfl
  | some text => exact rfl

/-- The path leads to a trusted file with this text, of at most 1 MiB. -/
def Disk.Holds
    (disk : Disk)
    (path : Bytes)
    (rootOwned isPrivate : Bool)
    (text : String) : Prop :=
  ∃ file, disk.Passes path rootOwned false isPrivate file ∧
    disk.contents file = utf8 text ∧ (utf8 text).length ≤ maxFrameLen

theorem reading_readTrustedFile
    {path : Bytes}
    {rootOwned isPrivate : Bool}
    {text : String}
    (holds : disk.Holds path rootOwned isPrivate text) :
    (readTrustedFile path rootOwned isPrivate).Meets disk.reading past
      fun _ result => result = .ok text := by
  obtain ⟨file, passes, contents, fits⟩ := holds
  unfold readTrustedFile
  refine Meets.mapError_bind (reading_openPath passes) ?_ fun _ _ failed => absurd failed (by simp)
  intro _ opened equal
  obtain rfl := Except.ok.inj equal
  refine Meets.mapError_bind (reading_readToString _) ?_ ?_
  all_goals
    intro _ read equal
    rw [contents, List.take_of_length_le (by omega), decodeUtf8_utf8] at equal
  · obtain rfl := Except.ok.inj equal
    rw [if_neg (Nat.not_lt.mpr fits)]
    exact rfl
  · exact absurd equal (by simp)

end Reading

/-! ## Keys -/

/-- The text of a key file with a key of 32 bytes. -/
def HoldsKey (text : String) : Prop :=
  ∃ material key, keyLine (lines text.toList) = some material ∧
    hexDecode (utf8 (String.ofList material)) = some key ∧ key.length = 32

theorem trim_trim (text : List Char) : trim (trim text) = trim text :=
  trimBoth_trimBoth text

/-- Key material needs no further trimming. -/
theorem trim_of_keyLine
    {lines : List (List Char)}
    {material : List Char}
    (found : keyLine lines = some material) :
    trim material = material := by
  induction lines with
  | nil => exact absurd found (by simp [keyLine])
  | cons line rest inductionHypothesis =>
      unfold keyLine at found
      dsimp only at found
      split at found
      · exact inductionHypothesis found
      · split at found
        · obtain rfl := Option.some.inj found
          exact trim_trim _
        · obtain rfl := Option.some.inj found
          exact trim_trim _

section Keys

variable {disk : Disk} {past : List HelperEvent} {path : Bytes} {rootOwned : Bool}

theorem reading_readKeyMaterial
    {isPrivate : Bool}
    {text : String}
    {material : List Char}
    (holds : disk.Holds path rootOwned isPrivate text)
    (found : keyLine (lines text.toList) = some material) :
    (readKeyMaterial path rootOwned isPrivate).Meets disk.reading past
      fun _ result => result = .ok material := by
  unfold readKeyMaterial
  refine Meets.bind (reading_readTrustedFile holds) ?_ fun _ _ failed => absurd failed (by simp)
  intro _ contents equal
  obtain rfl := Except.ok.inj equal
  rw [found]
  exact rfl

theorem decodeKey_of_length
    {material : List Char}
    {key : Bytes}
    (decoded : hexDecode (utf8 (String.ofList material)) = some key)
    (length : key.length = 32)
    (label : String) :
    decodeKey material label = .ok key := by
  simp only [decodeKey, decoded, length, if_true]

theorem reading_loadSigningKey
    {text : String}
    (holds : disk.Holds path rootOwned true text)
    (holdsKey : HoldsKey text) :
    (loadSigningKey none (some path) rootOwned).Meets disk.reading past
      fun _ result => ∃ key, result = .ok key := by
  obtain ⟨material, key, found, decoded, length⟩ := holdsKey
  unfold loadSigningKey
  refine Meets.bind (reading_readKeyMaterial holds found) ?_ fun _ _ failed =>
    absurd failed (by simp)
  intro _ read equal
  obtain rfl := Except.ok.inj equal
  rw [trim_of_keyLine found]
  exact ⟨key, decodeKey_of_length decoded length _⟩

theorem reading_loadPublicKey
    {text label : String}
    (holds : disk.Holds path rootOwned false text)
    (holdsKey : HoldsKey text) :
    (loadPublicKey none (some path) label rootOwned).Meets disk.reading past
      fun _ result => ∃ key, result = .ok key := by
  obtain ⟨material, key, found, decoded, length⟩ := holdsKey
  unfold loadPublicKey
  refine Meets.bind (reading_readKeyMaterial holds found) ?_ fun _ _ failed =>
    absurd failed (by simp)
  intro _ read equal
  obtain rfl := Except.ok.inj equal
  exact ⟨key, decodeKey_of_length decoded length _⟩

/-- A replay cache is optional; if there is one, it is trusted. -/
theorem reading_openReplayCache
    {directory : Option Bytes}
    (passes : ∀ path, directory = some path ->
      ∃ file, disk.Passes path rootOwned true true file) :
    (openReplayCache directory rootOwned).Meets disk.reading past
      fun _ result => ∃ cache, result = .ok cache := by
  unfold openReplayCache
  cases directory with
  | none => exact ⟨none, rfl⟩
  | some path =>
      obtain ⟨file, trusted⟩ := passes path rfl
      refine Meets.bind (reading_openPath trusted) ?_ fun _ _ failed => absurd failed (by simp)
      intro _ opened equal
      exact ⟨some opened, rfl⟩

end Keys
end Helper
end MacosAuth
