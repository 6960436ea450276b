import MacosAuth.Agent.ConfigFile
import MacosAuth.Effect.Crash
import Mathlib.Data.Finmap

/-!
# The disk under the config file

The directories and files that one process sees while it replaces its config, with
owners, groups and mode bits, and the handles it has open. Every call may fail, a write
may take any part of what it is given, and a new file may get any unused inode number.
-/

namespace MacosAuth
namespace Agent
namespace ConfigFile

open Codec
open Effect Effect.Program

/-- A file, with what `fstat` reports of it. -/
structure Node where
  mode : UInt16
  uid : UInt32
  gid : UInt32
  contents : Bytes

/-- The permission bits, without those of the file type. -/
def Node.permissions (node : Node) : UInt16 :=
  node.mode &&& 0xfff

/-- What a descriptor of the process stands for. -/
inductive Handle
  | directory (id : Nat)
  | reading (inode : Nat)
  | writing (inode : Nat)

structure Disk where
  /-- The inode numbers of the names in a directory. -/
  entries : Nat -> String -> Option Nat
  nodes : Nat -> Node
  /-- The open descriptors of the process. -/
  handles : Finmap fun _ : Nat => Handle

/-- What the calls depend on beside the disk. -/
structure Machine where
  /-- The directory that is opened under a path. -/
  directoryAt : String -> Option Nat
  /-- The directory and the name that a path ends at. -/
  locate : String -> Option (Nat × String)
  /-- The groups of the process. -/
  memberOf : UInt32 -> Prop

/-- `open` and the methods of `URL` agree on where a file is, unless the path ends with a
slash. -/
def Machine.AgreesWith {Key : Type} (machine : Machine) (platform : Platform Key) : Prop :=
  ∀ path directory, path.toList.getLast? ≠ some '/' ->
    machine.directoryAt (platform.parentPath path) = some directory ->
      machine.locate path = some (directory, platform.lastPathComponent path)

/-- The process may open the file for reading. -/
def Machine.MayRead (machine : Machine) (effectiveUID : UInt32) (node : Node) : Prop :=
  effectiveUID = 0 ∨
    (node.uid = effectiveUID ∧ node.mode &&& 0x100 ≠ 0) ∨
    (node.uid ≠ effectiveUID ∧ machine.memberOf node.gid ∧ node.mode &&& 0x20 ≠ 0) ∨
    (node.uid ≠ effectiveUID ∧ ¬machine.memberOf node.gid ∧ node.mode &&& 0x4 ≠ 0)

/-- The report of `fstat` is that of the file. -/
def Stat.Describes (st : Stat) (inode : Nat) (node : Node) : Prop :=
  st.inode = inode ∧ st.mode = node.mode ∧ st.uid = node.uid ∧ st.gid = node.gid

/-- The error number of a missing file. -/
def noEntry : Nat :=
  2

namespace Disk

/-- An inode number that is in use, because the file has a name or is open. -/
def Live (disk : Disk) (inode : Nat) : Prop :=
  (∃ directory name, disk.entries directory name = some inode) ∨
    ∃ fd, disk.handles.lookup fd = some (.reading inode) ∨
      disk.handles.lookup fd = some (.writing inode)

/-- One entry of a directory is set or removed. -/
def setEntry (disk : Disk) (directory : Nat) (name : String) (inode : Option Nat) : Disk :=
  { disk with
    entries := Function.update disk.entries directory
      (Function.update (disk.entries directory) name inode) }

def setNode (disk : Disk) (inode : Nat) (node : Node) : Disk :=
  { disk with nodes := Function.update disk.nodes inode node }

/-- A new descriptor. -/
def setHandle (disk : Disk) (fd : Nat) (handle : Handle) : Disk :=
  { disk with handles := disk.handles.insert fd handle }

def dropHandle (disk : Disk) (fd : Nat) : Disk :=
  { disk with handles := disk.handles.erase fd }

/-- Something is opened under an unused descriptor. -/
def Opens (disk : Disk) (fd : Nat) (handle : Handle) (after : Disk) : Prop :=
  disk.handles.lookup fd = none ∧ after = disk.setHandle fd handle

/-- A file is opened for reading, without following a symbolic link. -/
def OpensFile
    (disk : Disk)
    (machine : Machine)
    (effectiveUID : UInt32)
    (directory : Nat)
    (name : String)
    (fd : Nat)
    (after : Disk) : Prop :=
  ∃ inode, disk.entries directory name = some inode ∧
    (disk.nodes inode).mode &&& 0xf000 ≠ 0xa000 ∧ machine.MayRead effectiveUID (disk.nodes inode) ∧
    disk.Opens fd (.reading inode) after

/-- How a call is answered. Any call may fail, which changes nothing, except that a
descriptor may be gone after a failed `close`. What `fstat` reports of a directory, and
the device number, is left open. -/
def Serves (machine : Machine) (effectiveUID : UInt32) (disk : Disk) :
    (request : Call) -> request.Answer -> Disk -> Prop
  | .openFile path, .ok fd, after =>
      ∃ directory name, machine.locate path = some (directory, name) ∧
        disk.OpensFile machine effectiveUID directory name fd after
  | .openDirectory path, .ok fd, after =>
      ∃ directory, machine.directoryAt path = some directory ∧
        disk.Opens fd (.directory directory) after
  | .openat parent name, .ok fd, after =>
      ∃ directory, disk.handles.lookup parent = some (.directory directory) ∧
        disk.OpensFile machine effectiveUID directory name fd after
  | .createat parent name, .ok fd, after =>
      -- the mode is `0o600` less the bits of the umask
      ∃ directory inode gid mask, disk.handles.lookup parent = some (.directory directory) ∧
        disk.entries directory name = none ∧ ¬disk.Live inode ∧
        Opens
          ((disk.setEntry directory name (some inode)).setNode inode
            { mode := 0x8000 ||| (0x180 &&& mask)
              uid := effectiveUID
              gid := gid
              contents := [] })
          fd (.writing inode) after
  | .fstat fd, .ok st, after =>
      after = disk ∧ disk.handles.lookup fd ≠ none ∧
        ∀ inode, disk.handles.lookup fd = some (.reading inode) ∨
            disk.handles.lookup fd = some (.writing inode) ->
          st.Describes inode (disk.nodes inode)
  | .fstatat parent name, .ok st, after =>
      after = disk ∧ ∃ directory inode,
        disk.handles.lookup parent = some (.directory directory) ∧
        disk.entries directory name = some inode ∧ st.Describes inode (disk.nodes inode)
  | .readToEnd fd, some bytes, after =>
      after = disk ∧ ∃ inode, disk.handles.lookup fd = some (.reading inode) ∧
        bytes = (disk.nodes inode).contents
  | .write fd bytes, .wrote count, after =>
      ∃ inode, disk.handles.lookup fd = some (.writing inode) ∧
        after = disk.setNode inode
          { disk.nodes inode with
            contents := (disk.nodes inode).contents ++ bytes.take count.val }
  | .fchown fd uid gid, .ok _, after =>
      -- only the superuser gives files away
      ∃ inode, disk.handles.lookup fd = some (.writing inode) ∧
        (effectiveUID = 0 ∨ uid = (disk.nodes inode).uid) ∧
        after = disk.setNode inode { disk.nodes inode with uid := uid, gid := gid }
  | .fchmod fd mode, .ok _, after =>
      ∃ inode, disk.handles.lookup fd = some (.writing inode) ∧
        after = disk.setNode inode
          { disk.nodes inode with
            mode := ((disk.nodes inode).mode &&& 0xf000) ||| (mode &&& 0xfff) }
  | .close fd, .ok _, after => after = disk.dropHandle fd
  | .close fd, .error _, after => after = disk ∨ after = disk.dropHandle fd
  | .renameat parent source target, .ok _, after =>
      ∃ directory inode, disk.handles.lookup parent = some (.directory directory) ∧
        disk.entries directory source = some inode ∧
        after = (disk.setEntry directory source none).setEntry directory target (some inode)
  | .unlinkat parent name, .ok _, after =>
      ∃ directory, disk.handles.lookup parent = some (.directory directory) ∧
        disk.entries directory name ≠ none ∧ after = disk.setEntry directory name none
  | .unlinkat parent name, .error code, after =>
      after = disk ∧ (code = noEntry -> ∀ directory,
        disk.handles.lookup parent = some (.directory directory) ->
          disk.entries directory name = none)
  | _, _, after => after = disk

end Disk

/-- The answer reports a failure. -/
def Failed : (request : Call) -> request.Answer -> Prop
  | .openFile _, answer => ∃ code, answer = .error code
  | .openDirectory _, answer => ∃ code, answer = .error code
  | .openat _ _, answer => ∃ code, answer = .error code
  | .createat _ _, answer => ∃ code, answer = .error code
  | .fstat _, answer => ∃ code, answer = .error code
  | .fstatat _ _, answer => ∃ code, answer = .error code
  | .readToEnd _, answer => answer = none
  | .write _ _, answer => answer = .interrupted ∨ ∃ code, answer = .failed code
  | .fchown _ _ _, answer => ∃ code, answer = .error code
  | .fchmod _ _, answer => ∃ code, answer = .error code
  | .fsync _, answer => ∃ code, answer = .error code
  | .close _, answer => ∃ code, answer = .error code
  | .renameat _ _ _, answer => ∃ code, answer = .error code
  | .unlinkat _ _, answer => ∃ code, answer = .error code

/-- A call fails only if nothing else is possible. -/
def Disk.ServesSoundly
    (machine : Machine)
    (effectiveUID : UInt32)
    (disk : Disk)
    (request : Call)
    (answer : request.Answer)
    (after : Disk) : Prop :=
  disk.Serves machine effectiveUID request answer after ∧
    (Failed request answer -> ∀ other later,
      disk.Serves machine effectiveUID request other later -> Failed request other)

end ConfigFile
end Agent
end MacosAuth
