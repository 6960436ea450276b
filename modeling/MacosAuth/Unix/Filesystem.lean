import Mathlib.Data.UInt
import Mathlib.Logic.Relation
import Mathlib.Logic.Function.Basic

/-!
# A Unix filesystem with an unprivileged user

Inodes carry an owner, a group, mode bits and a content. Directory entries name
inodes. The actions of a user are the changes that ownership and mode bits
allow: creating, linking, unlinking, renaming, writing and changing modes.

The main lemma says that an action changes only inodes within the user's reach
and that these stay within reach. So an inode that is out of reach at one time
has been the same ever since and stays the same.
-/

namespace Unix

abbrev Name := List UInt8

inductive Content
  | regular (bytes : List UInt8)
  | directory (entries : Name -> Option Nat)
  | symlink (target : List UInt8)
  | special

structure Inode where
  owner : Nat
  group : Nat
  mode : UInt32
  content : Content

/-- The inodes in use, by number, and the number of the root directory. -/
structure Filesystem where
  inodes : Nat -> Option Inode
  root : Nat

/-- The identity under which a process acts. -/
structure Credentials where
  uid : Nat
  groups : List Nat

namespace Credentials

/-- The permission class of the user decides which bit counts. -/
def Holds (user : Credentials) (inode : Inode) (ownerBit groupBit otherBit : UInt32) : Prop :=
  if inode.owner = user.uid then inode.mode &&& ownerBit ≠ 0
  else if inode.group ∈ user.groups then inode.mode &&& groupBit ≠ 0
  else inode.mode &&& otherBit ≠ 0

def MayRead (user : Credentials) (inode : Inode) : Prop :=
  user.Holds inode 0x100 0x20 0x4

def MayWrite (user : Credentials) (inode : Inode) : Prop :=
  user.Holds inode 0x80 0x10 0x2

def MaySearch (user : Credentials) (inode : Inode) : Prop :=
  user.Holds inode 0x40 0x8 0x1

/-- The user owns the inode or may write to it. -/
def Reaches (user : Credentials) (inode : Inode) : Prop :=
  inode.owner = user.uid ∨ user.MayWrite inode

/-- An entry may be taken out of a directory with the sticky bit only by the owner
of the directory or of the entry. -/
def MayDetach (user : Credentials) (directory entry : Inode) : Prop :=
  user.MayWrite directory ∧ user.MaySearch directory ∧
    (directory.mode &&& 0x200 = 0 ∨ directory.owner = user.uid ∨ entry.owner = user.uid)

end Credentials

/-- What a new inode may contain. -/
inductive Content.Fresh : Content -> Prop
  | regular : Fresh (.regular [])
  | directory : Fresh (.directory fun _ => none)
  | symlink (target : List UInt8) : Fresh (.symlink target)
  | special : Fresh .special

namespace Filesystem

/-- Replace or add one inode. -/
def set (fs : Filesystem) (id : Nat) (inode : Inode) : Filesystem :=
  { fs with inodes := Function.update fs.inodes id (some inode) }

@[simp] theorem set_inodes_self (fs : Filesystem) (id : Nat) (inode : Inode) :
    (fs.set id inode).inodes id = some inode := by
  simp [set]

theorem set_inodes_of_ne
    (fs : Filesystem)
    {id other : Nat}
    (different : other ≠ id)
    (inode : Inode) :
    (fs.set id inode).inodes other = fs.inodes other := by
  simp [set, different]

@[simp] theorem set_root (fs : Filesystem) (id : Nat) (inode : Inode) :
    (fs.set id inode).root = fs.root :=
  rfl

end Filesystem

/-- A directory with one entry set or removed. -/
def Inode.withEntry
    (inode : Inode)
    (entries : Name -> Option Nat)
    (name : Name)
    (target : Option Nat) : Inode :=
  { inode with content := .directory (Function.update entries name target) }

/-- One change that ownership and mode bits allow to a user. Symbolic links and
directories are made by `create`. -/
inductive Acts (user : Credentials) : Filesystem -> Filesystem -> Prop
  | create {fs : Filesystem} {directory id : Nat} {parent inode : Inode}
      {entries : Name -> Option Nat} {name : Name} :
      fs.inodes directory = some parent -> parent.content = .directory entries ->
      user.MayWrite parent -> user.MaySearch parent ->
      entries name = none -> fs.inodes id = none ->
      inode.owner = user.uid -> inode.content.Fresh ->
      Acts user fs ((fs.set id inode).set directory (parent.withEntry entries name (some id)))
  | link {fs : Filesystem} {directory target : Nat} {parent inode : Inode}
      {entries : Name -> Option Nat} {name : Name} :
      fs.inodes directory = some parent -> parent.content = .directory entries ->
      user.MayWrite parent -> user.MaySearch parent ->
      entries name = none -> fs.inodes target = some inode ->
      Acts user fs (fs.set directory (parent.withEntry entries name (some target)))
  | unlink {fs : Filesystem} {directory target : Nat} {parent inode : Inode}
      {entries : Name -> Option Nat} {name : Name} :
      fs.inodes directory = some parent -> parent.content = .directory entries ->
      entries name = some target -> fs.inodes target = some inode ->
      user.MayDetach parent inode ->
      Acts user fs (fs.set directory (parent.withEntry entries name none))
  | rename {fs fs' : Filesystem} {source destination moved : Nat}
      {sourceParent destinationParent inode : Inode}
      {sourceEntries destinationEntries : Name -> Option Nat}
      {sourceName destinationName : Name} :
      fs.inodes source = some sourceParent ->
      sourceParent.content = .directory sourceEntries ->
      sourceEntries sourceName = some moved -> fs.inodes moved = some inode ->
      user.MayDetach sourceParent inode ->
      fs' = fs.set source (sourceParent.withEntry sourceEntries sourceName none) ->
      fs'.inodes destination = some destinationParent ->
      destinationParent.content = .directory destinationEntries ->
      user.MayWrite destinationParent -> user.MaySearch destinationParent ->
      (∀ replaced target, destinationEntries destinationName = some replaced ->
        fs.inodes replaced = some target -> user.MayDetach destinationParent target) ->
      Acts user fs (fs'.set destination
        (destinationParent.withEntry destinationEntries destinationName (some moved)))
  | write {fs : Filesystem} {id : Nat} {inode : Inode} {old new : List UInt8} :
      fs.inodes id = some inode -> inode.content = .regular old -> user.MayWrite inode ->
      Acts user fs (fs.set id { inode with content := .regular new })
  | chmod {fs : Filesystem} {id : Nat} {inode : Inode} {mode : UInt32} :
      fs.inodes id = some inode -> inode.owner = user.uid ->
      Acts user fs (fs.set id { inode with mode := mode })

/-! ## What a user can change -/

/-- Between the two filesystems only inodes within reach have changed, and they
are within reach afterwards. -/
def ChangesReached (user : Credentials) (fs fs' : Filesystem) : Prop :=
  fs'.root = fs.root ∧
    ∀ id, fs'.inodes id = fs.inodes id ∨
      (∀ old, fs.inodes id = some old -> user.Reaches old) ∧
        ∃ new, fs'.inodes id = some new ∧ user.Reaches new

section Reach

variable {user : Credentials} {fs fs' fs'' : Filesystem}

theorem ChangesReached.refl (fs : Filesystem) : ChangesReached user fs fs :=
  ⟨rfl, fun _ => .inl rfl⟩

theorem ChangesReached.trans
    (first : ChangesReached user fs fs')
    (second : ChangesReached user fs' fs'') :
    ChangesReached user fs fs'' := by
  refine ⟨second.1.trans first.1, fun id => ?_⟩
  rcases second.2 id with unchanged | ⟨reachedBefore, reachedAfter⟩
  · rw [unchanged]
    exact first.2 id
  · rcases first.2 id with unchanged | ⟨reachedFirst, _⟩
    · rw [unchanged] at reachedBefore
      exact .inr ⟨reachedBefore, reachedAfter⟩
    · exact .inr ⟨reachedFirst, reachedAfter⟩

theorem changesReached_set
    {id : Nat}
    {new : Inode}
    (before : ∀ old, fs.inodes id = some old -> user.Reaches old)
    (after : user.Reaches new) :
    ChangesReached user fs (fs.set id new) := by
  refine ⟨rfl, fun other => ?_⟩
  by_cases same : other = id
  · subst same
    exact .inr ⟨before, new, by simp, after⟩
  · exact .inl (fs.set_inodes_of_ne same new)

/-- Changing an entry of a writable directory keeps its owner and mode. -/
theorem changesReached_withEntry
    {directory : Nat}
    {parent : Inode}
    (present : fs.inodes directory = some parent)
    (writable : user.MayWrite parent)
    (entries : Name -> Option Nat)
    (name : Name)
    (target : Option Nat) :
    ChangesReached user fs (fs.set directory (parent.withEntry entries name target)) := by
  refine changesReached_set ?_ (.inr writable)
  intro old found
  rw [present] at found
  obtain rfl := Option.some.inj found
  exact .inr writable

/-- An action changes only what is within reach. -/
theorem Acts.changesReached (acts : Acts user fs fs') : ChangesReached user fs fs' := by
  cases acts with
  | @create directory id parent inode entries name present _ writable _ _ free owned _ =>
      have created : ChangesReached user fs (fs.set id inode) :=
        changesReached_set (by simp [free]) (.inl owned)
      have other : directory ≠ id := by
        rintro rfl
        simp [free] at present
      have stillPresent : (fs.set id inode).inodes directory = some parent := by
        rw [fs.set_inodes_of_ne other, present]
      exact created.trans (changesReached_withEntry stillPresent writable entries name _)
  | link present _ writable _ _ _ => exact changesReached_withEntry present writable _ _ _
  | unlink present _ _ _ detachable =>
      exact changesReached_withEntry present detachable.1 _ _ _
  | rename present _ _ _ detachable moved destinationPresent _ writable _ _ =>
      subst moved
      exact (changesReached_withEntry present detachable.1 _ _ _).trans
        (changesReached_withEntry destinationPresent writable _ _ _)
  | write present _ writable =>
      refine changesReached_set ?_ (.inr writable)
      intro old found
      rw [present] at found
      obtain rfl := Option.some.inj found
      exact .inr writable
  | chmod present owned =>
      refine changesReached_set ?_ (.inl owned)
      intro old found
      rw [present] at found
      obtain rfl := Option.some.inj found
      exact .inl owned

/-- Any number of actions changes only what is within reach. -/
theorem changesReached_of_actions
    (actions : Relation.ReflTransGen (Acts user) fs fs') :
    ChangesReached user fs fs' := by
  induction actions with
  | refl => exact .refl _
  | tail _ acts inductionHypothesis => exact inductionHypothesis.trans acts.changesReached

/-- An inode out of reach stays as it is. -/
theorem ChangesReached.keeps
    (changes : ChangesReached user fs fs')
    {id : Nat}
    {inode : Inode}
    (before : fs.inodes id = some inode)
    (unreached : ¬user.Reaches inode) :
    fs'.inodes id = some inode := by
  rcases changes.2 id with unchanged | ⟨reached, _⟩
  · rw [unchanged, before]
  · exact absurd (reached inode before) unreached

/-- An inode that is out of reach now has always been as it is. -/
theorem ChangesReached.kept
    (changes : ChangesReached user fs fs')
    {id : Nat}
    {inode : Inode}
    (after : fs'.inodes id = some inode)
    (unreached : ¬user.Reaches inode) :
    fs.inodes id = some inode := by
  rcases changes.2 id with unchanged | ⟨_, new, found, reached⟩
  · rw [← unchanged, after]
  · rw [after] at found
    obtain rfl := Option.some.inj found
    exact absurd reached unreached

end Reach

/-! ## Permissions that exclude a user -/

theorem and_eq_zero_of_and_eq_zero
    {mode mask bit : UInt32}
    (masked : mode &&& mask = 0)
    (included : mask &&& bit = bit) :
    mode &&& bit = 0 := by
  rw [← included, ← UInt32.and_assoc, masked, UInt32.zero_and]

/-- A permission that neither the group nor others have is withheld from everyone
but the owner. -/
theorem Credentials.not_holds
    {user : Credentials}
    {inode : Inode}
    {ownerBit groupBit otherBit mask : UInt32}
    (foreign : inode.owner ≠ user.uid)
    (masked : inode.mode &&& mask = 0)
    (group : mask &&& groupBit = groupBit)
    (other : mask &&& otherBit = otherBit) :
    ¬user.Holds inode ownerBit groupBit otherBit := by
  unfold Holds
  rw [if_neg foreign]
  split
  · exact fun held => held (and_eq_zero_of_and_eq_zero masked group)
  · exact fun held => held (and_eq_zero_of_and_eq_zero masked other)

end Unix
