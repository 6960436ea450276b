import MacosAuth.Agent.HostsCommand
import MacosAuth.Effect.System

/-!
# The config directory

The directory that `hosts` commands share, with its files and the descriptors that the
commands have open. The commands keep an invariant: nobody can write to the config, and
the replacement of a command holds what the command has written to it. A file that a
command holds open stays the same, and the config changes only by a rename.
-/

namespace MacosAuth
namespace Agent
namespace ConfigFile

open Codec
open Effect Effect.Program

/-! ## The directory and its answers -/

/-- What a descriptor stands for. -/
inductive Descriptor
  | directory
  | reading (inode : Nat)
  | writing (inode : Nat)
  deriving DecidableEq

/-- The config directory, the files in it, and the open descriptors of all commands. -/
structure Volume (ι : Type) where
  /-- The inode numbers of the names in the directory. -/
  entries : String -> Option Nat
  contents : Nat -> Bytes
  descriptors : ι -> Nat -> Option Descriptor

namespace Volume

variable {ι : Type} [DecidableEq ι]

/-- An inode number that is in use, because the file has a name or is open. -/
def Live (volume : Volume ι) (inode : Nat) : Prop :=
  (∃ name, volume.entries name = some inode) ∨
    ∃ thread fd, volume.descriptors thread fd = some (.reading inode) ∨
      volume.descriptors thread fd = some (.writing inode)

/-- Nobody can write to the file. -/
def Sealed (volume : Volume ι) (inode : Nat) : Prop :=
  ∀ thread fd, volume.descriptors thread fd ≠ some (.writing inode)

/-- One entry of a descriptor table is set or cleared. -/
def setDescriptor
    (volume : Volume ι)
    (thread : ι)
    (fd : Nat)
    (descriptor : Option Descriptor) : Volume ι :=
  { volume with
    descriptors := Function.update volume.descriptors thread
      (Function.update (volume.descriptors thread) fd descriptor) }

/-- A file is opened under an unused descriptor. -/
def Opens
    (volume : Volume ι)
    (thread : ι)
    (fd : Nat)
    (descriptor : Descriptor)
    (after : Volume ι) : Prop :=
  volume.descriptors thread fd = none ∧
    after = volume.setDescriptor thread fd (some descriptor)

/-- How the directory answers a command. Any call may fail, which changes nothing, except
that a descriptor may be gone after a failed `close`. A new file may take any inode
number that is not in use. What `fstat` reports beside the inode number is left open. -/
def Serves {Key : Type} (platform : Platform Key) (thread : ι) (volume : Volume ι) :
    (request : Call) -> request.Answer -> Volume ι -> Prop
  | .openFile path, .ok fd, after =>
      ∃ inode, volume.entries (platform.lastPathComponent path) = some inode ∧
        volume.Opens thread fd (.reading inode) after
  | .openDirectory _, .ok fd, after => volume.Opens thread fd .directory after
  | .openat _ name, .ok fd, after =>
      ∃ inode, volume.entries name = some inode ∧
        volume.Opens thread fd (.reading inode) after
  | .createat _ name, .ok fd, after =>
      volume.entries name = none ∧ ∃ inode, ¬volume.Live inode ∧
        Opens
          { volume with
            entries := Function.update volume.entries name (some inode)
            contents := Function.update volume.contents inode [] }
          thread fd (.writing inode) after
  | .fstat fd, .ok st, after =>
      (∀ inode, volume.descriptors thread fd = some (.reading inode) -> st.inode = inode) ∧
        after = volume
  | .fstatat _ name, .ok st, after => volume.entries name = some st.inode ∧ after = volume
  | .readToEnd fd, some bytes, after =>
      (∀ inode, volume.descriptors thread fd = some (.reading inode) ->
        bytes = volume.contents inode) ∧ after = volume
  | .write fd bytes, .wrote count, after =>
      ∃ inode, volume.descriptors thread fd = some (.writing inode) ∧
        after = { volume with
          contents := Function.update volume.contents inode
            (volume.contents inode ++ bytes.take count.val) }
  | .close fd, .ok _, after => after = volume.setDescriptor thread fd none
  | .close fd, .error _, after =>
      after = volume ∨ after = volume.setDescriptor thread fd none
  | .renameat _ source target, .ok _, after =>
      ∃ inode, volume.entries source = some inode ∧
        after = { volume with
          entries := Function.update (Function.update volume.entries source none) target
            (some inode) }
  | .unlinkat _ name, .ok _, after =>
      after = { volume with entries := Function.update volume.entries name none }
  | _, _, after => after = volume

end Volume

/-- Commands that share a config directory, which nobody else changes. -/
def configSystem {Key : Type} (platform : Platform Key) (ι : Type) [DecidableEq ι] :
    System ι (fun _ => Call) (fun _ => Call.Answer) (Volume ι) where
  serves thread volume := volume.Serves platform thread
  drifts _ _ := False

/-! ## The invariant of the directory -/

/-- The replacement of a command is in the directory, with the bytes written so far, and
nobody else can write to it. -/
def DraftHolds {ι : Type} (volume : Volume ι) (thread : ι) (name : String) : Draft -> Prop
  | .writing fd bytes =>
      ∃ inode, volume.entries name = some inode ∧ volume.contents inode = bytes ∧
        volume.descriptors thread fd = some (.writing inode) ∧
        ∀ other target, volume.descriptors other target = some (.writing inode) ->
          other = thread ∧ target = fd
  | .complete bytes =>
      ∃ inode, volume.entries name = some inode ∧ volume.contents inode = bytes ∧
        volume.Sealed inode
  | _ => True

/-- The config is there and nobody can write to it, and the replacements are as their
commands left them. -/
structure VolumeInvariant {ι : Type} (name : String) (replacement : ι -> String)
    (pasts : ι -> List FileEvent) (volume : Volume ι) : Prop where
  published : ∃ inode, volume.entries name = some inode ∧ volume.Sealed inode
  drafts : ∀ thread, DraftHolds volume thread (replacement thread) (draft (pasts thread))

section Directory

variable {ι : Type}
variable {volume after : Volume ι} {thread actor : ι} {name : String} {event : FileEvent}

/-- A call of a command leaves the file of a name alone, unless the command could write to
it: its entry and its contents stay, and nobody else becomes able to write to it. -/
structure Undisturbed (actor : ι) (volume after : Volume ι) (name : String) : Prop where
  entry : after.entries name = volume.entries name
  contents : ∀ inode, volume.entries name = some inode ->
    (∀ fd, volume.descriptors actor fd ≠ some (.writing inode)) ->
      after.contents inode = volume.contents inode
  writers : ∀ inode, volume.entries name = some inode -> ∀ thread fd,
    after.descriptors thread fd = some (.writing inode) ->
      volume.descriptors thread fd = some (.writing inode)

theorem Undisturbed.sealed
    (undisturbed : Undisturbed actor volume after name)
    {inode : Nat}
    (present : volume.entries name = some inode)
    (closed : volume.Sealed inode) :
    after.Sealed inode :=
  fun thread fd opened => closed thread fd (undisturbed.writers inode present thread fd opened)

/-- The replacement of another command stays as it is. -/
theorem DraftHolds.of_undisturbed
    {current : Draft}
    (holds : DraftHolds volume thread name current)
    (undisturbed : Undisturbed actor volume after name)
    (different : thread ≠ actor)
    (kept : after.descriptors thread = volume.descriptors thread) :
    DraftHolds after thread name current := by
  cases current with
  | absent => trivial
  | gone => trivial
  | writing fd bytes =>
      obtain ⟨inode, present, filled, own, alone⟩ := holds
      refine ⟨inode, by rw [undisturbed.entry, present], ?_, by rw [kept, own], ?_⟩
      · rw [undisturbed.contents inode present, filled]
        exact fun target opened => different (alone actor target opened).1.symm
      · intro other target opened
        exact alone other target (undisturbed.writers inode present other target opened)
  | complete bytes =>
      obtain ⟨inode, present, filled, closed⟩ := holds
      refine ⟨inode, by rw [undisturbed.entry, present], ?_, ?_⟩
      · rw [undisturbed.contents inode present (closed actor), filled]
      · exact undisturbed.sealed present closed

/-- What a call of one command does to the directory, apart from its own replacement. -/
structure Contained (name : String) (replacement : ι -> String) (thread : ι)
    (volume : Volume ι) (event : FileEvent) (after : Volume ι) : Prop where
  published : isRename event = false -> Undisturbed thread volume after name
  others : ∀ other, other ≠ thread -> Undisturbed thread volume after (replacement other)
  descriptors : ∀ other, other ≠ thread -> after.descriptors other = volume.descriptors other

theorem Undisturbed.of_same
    (entries : after.entries = volume.entries)
    (contents : after.contents = volume.contents)
    (writers : ∀ inode other fd, after.descriptors other fd = some (.writing inode) ->
      volume.descriptors other fd = some (.writing inode)) :
    Undisturbed actor volume after name where
  entry := by rw [entries]
  contents _ _ _ := by rw [contents]
  writers inode _ other fd opened := writers inode other fd opened

variable [DecidableEq ι]

@[simp] theorem Volume.setDescriptor_self
    (volume : Volume ι)
    (thread : ι)
    (fd : Nat)
    (descriptor : Option Descriptor) :
    (volume.setDescriptor thread fd descriptor).descriptors thread =
      Function.update (volume.descriptors thread) fd descriptor := by
  simp [Volume.setDescriptor]

theorem Volume.setDescriptor_of_ne
    (volume : Volume ι)
    {thread other : ι}
    (different : other ≠ thread)
    (fd : Nat)
    (descriptor : Option Descriptor) :
    (volume.setDescriptor thread fd descriptor).descriptors other =
      volume.descriptors other := by
  simp [Volume.setDescriptor, different]

/-- Setting a descriptor to anything but a file that is written to makes no new writers. -/
theorem Volume.writes_of_setDescriptor
    {fd : Nat}
    {descriptor : Option Descriptor}
    (harmless : ∀ inode, descriptor ≠ some (.writing inode))
    {inode target : Nat}
    {other : ι}
    (opened : (volume.setDescriptor thread fd descriptor).descriptors other target =
      some (.writing inode)) :
    volume.descriptors other target = some (.writing inode) ∧
      ¬(other = thread ∧ target = fd) := by
  by_cases same : other = thread
  · subst same
    rw [Volume.setDescriptor_self] at opened
    by_cases equal : target = fd
    · subst equal
      rw [Function.update_self] at opened
      exact absurd opened (harmless inode)
    · rw [Function.update_of_ne equal] at opened
      exact ⟨opened, fun both => equal both.2⟩
  · rw [Volume.setDescriptor_of_ne _ same] at opened
    exact ⟨opened, fun both => same both.1⟩

theorem Contained.of_setDescriptor
    {replacement : ι -> String}
    {fd : Nat}
    {descriptor : Option Descriptor}
    (harmless : ∀ inode, descriptor ≠ some (.writing inode)) :
    Contained name replacement thread volume event
      (volume.setDescriptor thread fd descriptor) where
  published _ := .of_same rfl rfl fun _ _ _ opened =>
    (Volume.writes_of_setDescriptor harmless opened).1
  others _ _ := .of_same rfl rfl fun _ _ _ opened =>
    (Volume.writes_of_setDescriptor harmless opened).1
  descriptors _ different := Volume.setDescriptor_of_ne _ different _ _

omit [DecidableEq ι] in
theorem Contained.of_unchanged
    {replacement : ι -> String} :
    Contained name replacement thread volume event volume where
  published _ := .of_same rfl rfl fun _ _ _ opened => opened
  others _ _ := .of_same rfl rfl fun _ _ _ opened => opened
  descriptors _ _ := rfl

/-- A file with another name than the new one is left alone by its creation. -/
theorem Undisturbed.of_create
    {created : String}
    {inode fd : Nat}
    (different : name ≠ created)
    (fresh : ¬volume.Live inode) :
    Undisturbed actor volume
      (Volume.setDescriptor
        { volume with
          entries := Function.update volume.entries created (some inode)
          contents := Function.update volume.contents inode [] }
        thread fd (some (.writing inode)))
      name where
  entry := Function.update_of_ne different _ _
  contents := by
    intro found present _
    refine Function.update_of_ne ?_ _ _
    rintro rfl
    exact fresh (.inl ⟨name, present⟩)
  writers := by
    intro found present other target opened
    have other_inode : found ≠ inode := by
      rintro rfl
      exact fresh (.inl ⟨name, present⟩)
    by_cases same : other = thread
    · subst same
      rw [Volume.setDescriptor_self] at opened
      by_cases equal : target = fd
      · subst equal
        rw [Function.update_self] at opened
        exact absurd (Descriptor.writing.inj (Option.some.inj opened)).symm other_inode
      · rwa [Function.update_of_ne equal] at opened
    · rwa [Volume.setDescriptor_of_ne _ same] at opened

variable {Key : Type} {platform : Platform Key} {path : String} {processes : ι -> Process}

/-- The name of the replacement of a command. -/
def replacementOf
    {ι Key : Type}
    (platform : Platform Key)
    (path : String)
    (processes : ι -> Process)
    (thread : ι) : String :=
  replacementName (platform.lastPathComponent path) (processes thread).uuid

omit [DecidableEq ι] in
theorem replacementOf_ne (thread : ι) :
    replacementOf platform path processes thread ≠ platform.lastPathComponent path := by
  intro equal
  have lengths := congrArg String.length equal
  simp only [replacementOf, replacementName, String.length_append] at lengths
  have dot : ".".length = 1 := rfl
  omega

omit [DecidableEq ι] in
theorem replacementOf_injective
    (uuids : Function.Injective fun thread => (processes thread).uuid) :
    Function.Injective (replacementOf platform path processes) := by
  intro left right equal
  refine uuids ?_
  simpa [replacementOf, replacementName] using equal

/-- An allowed call leaves the config and the replacements of others alone. -/
theorem contained_of_serves
    (uuids : Function.Injective fun thread => (processes thread).uuid)
    {past : List FileEvent}
    {request : Call}
    {answer : request.Answer}
    (allowed : (hostsContract platform path (processes thread)).allows past request)
    (served : volume.Serves platform thread request answer after) :
    Contained (platform.lastPathComponent path) (replacementOf platform path processes) thread
      volume ⟨request, answer⟩ after := by
  have apart (other : ι) (different : other ≠ thread) :
      replacementOf platform path processes other ≠
        replacementOf platform path processes thread :=
    fun equal => different (replacementOf_injective uuids equal)
  have unpublished (other : ι) :
      replacementOf platform path processes other ≠ platform.lastPathComponent path :=
    replacementOf_ne other
  unfold Volume.Serves at served
  split at served
  · obtain ⟨_, _, _, rfl⟩ := served
    exact .of_setDescriptor (by simp)
  · obtain ⟨_, rfl⟩ := served
    exact .of_setDescriptor (by simp)
  · obtain ⟨_, _, _, rfl⟩ := served
    exact .of_setDescriptor (by simp)
  · rename_i parent created fd
    obtain ⟨_, inode, fresh, _, rfl⟩ := served
    obtain ⟨own, _⟩ := allowed
    obtain rfl : created = replacementOf platform path processes thread := own
    refine ⟨fun _ => .of_create (unpublished thread).symm fresh,
      fun other different => .of_create (apart other different) fresh, fun other different => ?_⟩
    exact Volume.setDescriptor_of_ne _ different _ _
  · obtain ⟨_, rfl⟩ := served
    exact .of_unchanged
  · obtain ⟨_, rfl⟩ := served
    exact .of_unchanged
  · obtain ⟨_, rfl⟩ := served
    exact .of_unchanged
  · rename_i fd bytes count
    obtain ⟨inode, own, rfl⟩ := served
    have undisturbed (name : String) : Undisturbed thread volume
        { volume with
          contents := Function.update volume.contents inode
            (volume.contents inode ++ bytes.take count.val) } name :=
      ⟨rfl, fun found _ unwritten => Function.update_of_ne (by
        rintro rfl
        exact unwritten fd own) _ _, fun _ _ _ _ opened => opened⟩
    exact ⟨fun _ => undisturbed _, fun _ _ => undisturbed _, fun _ _ => rfl⟩
  · subst served
    exact .of_setDescriptor (by simp)
  · rcases served with rfl | rfl
    · exact .of_unchanged
    · exact .of_setDescriptor (by simp)
  · rename_i parent source target _
    obtain ⟨inode, _, rfl⟩ := served
    obtain ⟨own, published, _⟩ := allowed
    obtain rfl : source = replacementOf platform path processes thread := own
    subst published
    refine ⟨by rintro ⟨⟩, fun other different => ⟨?_, fun _ _ _ => rfl, fun _ _ _ _ opened => opened⟩,
      fun _ _ => rfl⟩
    exact (Function.update_of_ne (unpublished other) _ _).trans
      (Function.update_of_ne (apart other different) _ _)
  · rename_i parent removed _
    subst served
    obtain rfl : removed = replacementOf platform path processes thread := allowed
    refine ⟨fun _ => ⟨?_, fun _ _ _ => rfl, fun _ _ _ _ opened => opened⟩,
      fun other different => ⟨?_, fun _ _ _ => rfl, fun _ _ _ _ opened => opened⟩, fun _ _ => rfl⟩
    · exact Function.update_of_ne (unpublished thread).symm _ _
    · exact Function.update_of_ne (apart other different) _ _
  · subst served
    exact .of_unchanged

/-- Another descriptor of the command does not matter to its replacement. -/
theorem DraftHolds.of_setDescriptor
    {current : Draft}
    {fd : Nat}
    {descriptor : Option Descriptor}
    (holds : DraftHolds volume thread name current)
    (harmless : ∀ inode, descriptor ≠ some (.writing inode))
    (unused : ∀ bytes, current ≠ .writing fd bytes) :
    DraftHolds (volume.setDescriptor thread fd descriptor) thread name current := by
  cases current with
  | absent => trivial
  | gone => trivial
  | writing own bytes =>
      obtain ⟨inode, present, filled, opened, alone⟩ := holds
      have different : own ≠ fd := by
        rintro rfl
        exact unused bytes rfl
      refine ⟨inode, present, filled, ?_, ?_⟩
      · rw [Volume.setDescriptor_self, Function.update_of_ne different, opened]
      · intro other target reached
        exact alone other target (Volume.writes_of_setDescriptor harmless reached).1
  | complete bytes =>
      obtain ⟨inode, present, filled, closed⟩ := holds
      refine ⟨inode, present, filled, fun other target reached => ?_⟩
      exact closed other target (Volume.writes_of_setDescriptor harmless reached).1

/-- A descriptor that is newly opened is not that of the replacement. -/
theorem DraftHolds.of_opens
    {current : Draft}
    {fd : Nat}
    {descriptor : Descriptor}
    (holds : DraftHolds volume thread name current)
    (harmless : ∀ inode, descriptor ≠ .writing inode)
    (opens : volume.Opens thread fd descriptor after) :
    DraftHolds after thread name current := by
  obtain ⟨unused, rfl⟩ := opens
  refine holds.of_setDescriptor (fun inode equal => harmless inode (Option.some.inj equal)) ?_
  rintro bytes rfl
  obtain ⟨inode, _, _, opened, _⟩ := holds
  rw [unused] at opened
  cases opened

/-- Closing the descriptor of the replacement seals it. -/
theorem DraftHolds.of_close
    {current : Draft}
    {fd : Nat}
    (holds : DraftHolds volume thread name current) :
    DraftHolds (volume.setDescriptor thread fd none) thread name
      (current.after ⟨.close fd, .ok ()⟩) := by
  cases current with
  | absent => trivial
  | gone => trivial
  | complete bytes => exact holds.of_setDescriptor (by simp) (by simp)
  | writing own bytes =>
      by_cases same : fd = own
      · subst same
        obtain ⟨inode, present, filled, _, alone⟩ := holds
        simp only [Draft.after, if_true]
        refine ⟨inode, present, filled, fun other target reached => ?_⟩
        obtain ⟨earlier, kept⟩ := Volume.writes_of_setDescriptor (by simp) reached
        exact kept (alone other target earlier)
      · simp only [Draft.after, if_neg same]
        refine holds.of_setDescriptor (by simp) fun _ equal => same ?_
        exact (Draft.writing.inj equal).1.symm

/-- The own replacement is as the call leaves it. -/
theorem draftHolds_of_serves
    {past : List FileEvent}
    {request : Call}
    {answer : request.Answer}
    (allowed : (hostsContract platform path (processes thread)).allows past request)
    (served : volume.Serves platform thread request answer after)
    (holds : DraftHolds volume thread (replacementOf platform path processes thread)
      (draft past)) :
    DraftHolds after thread (replacementOf platform path processes thread)
      ((draft past).after ⟨request, answer⟩) := by
  unfold Volume.Serves at served
  split at served
  · obtain ⟨_, _, opens⟩ := served
    have opened := holds.of_opens (by simp) opens
    cases current : draft past <;> rw [current] at opened <;> exact opened
  · have opened := holds.of_opens (by simp) served
    cases current : draft past <;> rw [current] at opened <;> exact opened
  · obtain ⟨_, _, opens⟩ := served
    have opened := holds.of_opens (by simp) opens
    cases current : draft past <;> rw [current] at opened <;> exact opened
  · rename_i parent created fd
    obtain ⟨_, inode, fresh, _, rfl⟩ := served
    obtain ⟨own, absent⟩ := allowed
    obtain rfl : created = replacementOf platform path processes thread := own
    rw [absent]
    refine ⟨inode, Function.update_self .., Function.update_self .., by simp, ?_⟩
    intro other target reached
    by_contra outside
    refine fresh (.inr ⟨other, target, .inr ?_⟩)
    by_cases same : other = thread
    · subst same
      rw [Volume.setDescriptor_self, Function.update_of_ne fun equal => outside ⟨rfl, equal⟩]
        at reached
      exact reached
    · rwa [Volume.setDescriptor_of_ne _ same] at reached
  · obtain ⟨_, rfl⟩ := served
    cases current : draft past <;> rw [current] at holds <;> exact holds
  · obtain ⟨_, rfl⟩ := served
    cases current : draft past <;> rw [current] at holds <;> exact holds
  · obtain ⟨_, rfl⟩ := served
    cases current : draft past <;> rw [current] at holds <;> exact holds
  · rename_i fd bytes count
    obtain ⟨inode, own, rfl⟩ := served
    obtain ⟨written, writing⟩ := allowed
    rw [writing] at holds ⊢
    obtain ⟨found, present, filled, opened, alone⟩ := holds
    rw [own] at opened
    obtain rfl := Descriptor.writing.inj (Option.some.inj opened)
    simp only [Draft.after, if_true]
    exact ⟨inode, present, by simp [filled], own, alone⟩
  · subst served
    exact holds.of_close
  · rename_i fd code
    have closed : (∃ bytes, draft past = .writing fd bytes) ∨
        (draft past).after ⟨.close fd, .error code⟩ = draft past ∧
          ∀ bytes, draft past ≠ .writing fd bytes := by
      cases draft past with
      | writing own bytes =>
          by_cases same : fd = own
          · exact .inl ⟨bytes, by rw [same]⟩
          · exact .inr ⟨by simp [Draft.after, same], by simp [Ne.symm same]⟩
      | _ => exact .inr ⟨rfl, by simp⟩
    rcases closed with ⟨bytes, writing⟩ | ⟨unchanged, unused⟩
    · rw [writing]
      simp [Draft.after, DraftHolds]
    · rw [unchanged]
      rcases served with rfl | rfl
      · exact holds
      · exact holds.of_setDescriptor (by simp) unused
  · cases draft past <;> trivial
  · cases draft past <;> trivial
  · rename_i noCreate _ _ _ noWrite noClose noFailedClose noRename _
    subst served
    generalize draft past = current at holds ⊢
    unfold Draft.after
    split
    · rename_i made
      cases made
      exact (noCreate _ _ _ rfl HEq.rfl).elim
    · rename_i made
      cases made
      exact (noWrite _ _ _ rfl HEq.rfl).elim
    · rename_i made
      cases made
      exact (noClose _ _ rfl HEq.rfl).elim
    · rename_i made
      cases made
      exact (noFailedClose _ _ rfl HEq.rfl).elim
    · trivial
    · trivial
    · exact holds

/-- The invariant survives the calls that commands may make. -/
theorem VolumeInvariant.step
    (uuids : Function.Injective fun thread => (processes thread).uuid)
    {pasts : ι -> List FileEvent}
    (invariant : VolumeInvariant (platform.lastPathComponent path)
      (replacementOf platform path processes) pasts volume)
    {request : Call}
    {answer : request.Answer}
    (allowed : (hostsContract platform path (processes thread)).allows (pasts thread) request)
    (served : volume.Serves platform thread request answer after) :
    VolumeInvariant (platform.lastPathComponent path) (replacementOf platform path processes)
      (Function.update pasts thread (pasts thread ++ [⟨request, answer⟩])) after := by
  have contained := contained_of_serves uuids allowed served
  refine ⟨?_, fun other => ?_⟩
  · cases renames : isRename ⟨request, answer⟩ with
    | false =>
        obtain ⟨inode, present, closed⟩ := invariant.published
        have undisturbed := contained.published renames
        exact ⟨inode, by rw [undisturbed.entry, present], undisturbed.sealed present closed⟩
    | true =>
        unfold isRename at renames
        split at renames
        · rename_i made
          cases made
          obtain ⟨rfl, rfl, data, complete, _⟩ := allowed
          obtain ⟨inode, present, rfl⟩ := served
          have holds := invariant.drafts thread
          rw [complete] at holds
          obtain ⟨found, published, _, closed⟩ := holds
          obtain rfl := Option.some.inj (present.symm.trans published)
          exact ⟨inode, Function.update_self .., closed⟩
        · cases renames
  · rcases eq_or_ne other thread with rfl | different
    · rw [Function.update_self, draft_append]
      exact draftHolds_of_serves allowed served (invariant.drafts other)
    · rw [Function.update_of_ne different]
      exact (invariant.drafts other).of_undisturbed (contained.others other different) different
        (contained.descriptors other different)

end Directory

/-! ## What every call leaves alone -/

section Frame

variable {ι : Type} [DecidableEq ι] {Key : Type} {platform : Platform Key}

/-- Commands have their own descriptors. -/
theorem descriptors_of_serves
    {thread other : ι}
    {before after : Volume ι}
    {request : Call}
    {answer : request.Answer}
    (served : before.Serves platform thread request answer after)
    (different : other ≠ thread) :
    after.descriptors other = before.descriptors other := by
  unfold Volume.Serves at served
  split at served
  · obtain ⟨_, _, _, rfl⟩ := served
    exact Volume.setDescriptor_of_ne _ different _ _
  · obtain ⟨_, rfl⟩ := served
    exact Volume.setDescriptor_of_ne _ different _ _
  · obtain ⟨_, _, _, rfl⟩ := served
    exact Volume.setDescriptor_of_ne _ different _ _
  · obtain ⟨_, _, _, _, rfl⟩ := served
    exact Volume.setDescriptor_of_ne _ different _ _
  · rw [served.2]
  · rw [served.2]
  · rw [served.2]
  · obtain ⟨_, _, rfl⟩ := served
    rfl
  · subst served
    exact Volume.setDescriptor_of_ne _ different _ _
  · rcases served with rfl | rfl
    · rfl
    · exact Volume.setDescriptor_of_ne _ different _ _
  · obtain ⟨_, _, rfl⟩ := served
    rfl
  · subst served
    rfl
  · rw [served]

theorem Volume.Opens.descriptor
    {thread : ι}
    {before after : Volume ι}
    {fd own : Nat}
    {descriptor kept : Descriptor}
    (opens : before.Opens thread fd descriptor after)
    (opened : before.descriptors thread own = some kept) :
    after.descriptors thread own = some kept := by
  obtain ⟨unused, rfl⟩ := opens
  rw [Volume.setDescriptor_self, Function.update_of_ne, opened]
  rintro rfl
  rw [unused] at opened
  cases opened

/-- A descriptor stays open until it is closed. -/
theorem descriptor_of_serves
    {thread : ι}
    {before after : Volume ι}
    {request : Call}
    {answer : request.Answer}
    (served : before.Serves platform thread request answer after)
    {fd : Nat}
    (stays : request ≠ .close fd)
    {descriptor : Descriptor}
    (opened : before.descriptors thread fd = some descriptor) :
    after.descriptors thread fd = some descriptor := by
  unfold Volume.Serves at served
  split at served
  · obtain ⟨_, _, opens⟩ := served
    exact opens.descriptor opened
  · exact Volume.Opens.descriptor served opened
  · obtain ⟨_, _, opens⟩ := served
    exact opens.descriptor opened
  · obtain ⟨_, _, _, opens⟩ := served
    exact opens.descriptor opened
  · rw [served.2, opened]
  · rw [served.2, opened]
  · rw [served.2, opened]
  · obtain ⟨_, _, rfl⟩ := served
    exact opened
  · subst served
    rw [Volume.setDescriptor_self, Function.update_of_ne (by simpa using Ne.symm stays), opened]
  · rcases served with rfl | rfl
    · exact opened
    · rw [Volume.setDescriptor_self, Function.update_of_ne (by simpa using Ne.symm stays), opened]
  · obtain ⟨_, _, rfl⟩ := served
    exact opened
  · subst served
    exact opened
  · rw [served, opened]

/-- A file that is open and that nobody can write to stays so and keeps its contents. -/
theorem sealed_of_serves
    {thread : ι}
    {before after : Volume ι}
    {request : Call}
    {answer : request.Answer}
    (served : before.Serves platform thread request answer after)
    {inode : Nat}
    (live : before.Live inode)
    (closed : before.Sealed inode) :
    after.Sealed inode ∧ after.contents inode = before.contents inode := by
  have opens {fd : Nat} {descriptor : Descriptor}
      (harmless : ∀ inode, some descriptor ≠ some (.writing inode))
      (opened : before.Opens thread fd descriptor after) :
      after.Sealed inode ∧ after.contents inode = before.contents inode := by
    obtain ⟨_, rfl⟩ := opened
    refine ⟨fun other target reached => ?_, rfl⟩
    exact closed other target (Volume.writes_of_setDescriptor harmless reached).1
  have closes {fd : Nat} : (before.setDescriptor thread fd none).Sealed inode := by
    intro other target reached
    exact closed other target (Volume.writes_of_setDescriptor (by simp) reached).1
  unfold Volume.Serves at served
  split at served
  · obtain ⟨_, _, opened⟩ := served
    exact opens (by simp) opened
  · exact opens (by simp) served
  · obtain ⟨_, _, opened⟩ := served
    exact opens (by simp) opened
  · obtain ⟨_, created, fresh, _, rfl⟩ := served
    have different : inode ≠ created := by
      rintro rfl
      exact fresh live
    refine ⟨fun other target reached => ?_, Function.update_of_ne different _ _⟩
    by_cases same : other = thread
    · subst same
      rw [Volume.setDescriptor_self, Function.update_apply] at reached
      split at reached
      · exact different (Descriptor.writing.inj (Option.some.inj reached)).symm
      · exact closed other target reached
    · rw [Volume.setDescriptor_of_ne _ same] at reached
      exact closed other target reached
  · rw [served.2]
    exact ⟨closed, rfl⟩
  · rw [served.2]
    exact ⟨closed, rfl⟩
  · rw [served.2]
    exact ⟨closed, rfl⟩
  · obtain ⟨target, own, rfl⟩ := served
    refine ⟨closed, Function.update_of_ne ?_ _ _⟩
    rintro rfl
    exact closed _ _ own
  · subst served
    exact ⟨closes, rfl⟩
  · rcases served with rfl | rfl
    · exact ⟨closed, rfl⟩
    · exact ⟨closes, rfl⟩
  · obtain ⟨_, _, rfl⟩ := served
    exact ⟨closed, rfl⟩
  · subst served
    exact ⟨closed, rfl⟩
  · rw [served]
    exact ⟨closed, rfl⟩

end Frame

end ConfigFile
end Agent
end MacosAuth
