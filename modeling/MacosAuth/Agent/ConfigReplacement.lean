import MacosAuth.Agent.ConfigDisk
import Mathlib.Data.UInt

/-!
# Replacing the config

Whatever call fails, and wherever the process stops, the config is the complete old file
or a complete new one. A call that has returned leaves no replacement behind, and a new
file gives nobody access that the old one did not give. A config that has been written
can be loaded.
-/

namespace MacosAuth
namespace Agent
namespace ConfigFile

open Codec
open Effect Effect.Program

/-! ## Mode bits -/

theorem or_and (first second bits : UInt16) :
    (first ||| second) &&& bits = first &&& bits ||| second &&& bits := by
  apply UInt16.toBitVec_inj.mp
  simp only [UInt16.toBitVec_and, UInt16.toBitVec_or]
  rw [BitVec.and_comm, BitVec.and_or_distrib_left, BitVec.and_comm, BitVec.and_comm bits.toBitVec]

/-- The permissions of a file are those that `fchmod` sets. -/
theorem and_of_changed
    (mode permissions : UInt16)
    {bits : UInt16}
    (outside : 0xf000 &&& bits = 0)
    (inside : 0xfff &&& bits = bits) :
    ((mode &&& 0xf000) ||| (permissions &&& 0xfff)) &&& bits = permissions &&& bits := by
  rw [or_and, UInt16.and_assoc, UInt16.and_assoc, outside, inside, UInt16.and_zero, UInt16.zero_or]

/-- The type of a file is not changed by `fchmod`. -/
theorem and_of_kept (mode permissions : UInt16) :
    ((mode &&& 0xf000) ||| (permissions &&& 0xfff)) &&& 0xf000 = mode &&& 0xf000 := by
  have inside : (0xf000 : UInt16) &&& 0xf000 = 0xf000 := by decide
  have outside : (0xfff : UInt16) &&& 0xf000 = 0 := by decide
  rw [or_and, UInt16.and_assoc, UInt16.and_assoc, inside, outside, UInt16.and_zero, UInt16.or_zero]

/-- A file is created as a regular one. -/
theorem and_of_created (mask : UInt16) : (0x8000 ||| (0x180 &&& mask)) &&& 0xf000 = 0x8000 := by
  have inside : (0x8000 : UInt16) &&& 0xf000 = 0x8000 := by decide
  have outside : (0x180 : UInt16) &&& 0xf000 = 0 := by decide
  rw [or_and, inside, UInt16.and_comm 0x180, UInt16.and_assoc, outside, UInt16.and_zero,
    UInt16.or_zero]

theorem and_eq_zero_of_and_eq_zero
    {mode mask bits : UInt16}
    (masked : mode &&& mask = 0)
    (included : mask &&& bits = bits) :
    mode &&& bits = 0 := by
  rw [← included, ← UInt16.and_assoc, masked, UInt16.zero_and]

/-- What the check of a file asks for. -/
theorem validateFileMetadata_eq_ok
    (st : Stat)
    (label : String)
    (privateMaterial : Bool)
    (effectiveUID : UInt32) :
    validateFileMetadata st label privateMaterial effectiveUID = .ok () ↔
      st.mode &&& 0xf000 = 0x8000 ∧ (st.uid = effectiveUID ∨ st.uid = 0) ∧
        st.mode &&& (if privateMaterial then 0x3f else 0x12) = 0 := by
  unfold validateFileMetadata
  by_cases regular : st.mode &&& 0xf000 = 0x8000
  · by_cases owned : st.uid = effectiveUID ∨ st.uid = 0
    · have ours : ¬(st.uid ≠ effectiveUID ∧ st.uid ≠ 0) := by tauto
      rw [if_neg (not_not_intro regular), if_neg ours]
      by_cases safe : st.mode &&& (if privateMaterial then 0x3f else 0x12) = 0
      · simp [regular, owned, safe]
      · simp [safe]
    · have foreign : st.uid ≠ effectiveUID ∧ st.uid ≠ 0 := by tauto
      rw [if_neg (not_not_intro regular), if_pos foreign]
      simp [owned]
  · rw [if_pos regular]
    simp [regular]

/-- What `replaceConfigFile` keeps of the mode of the original. -/
def keptMode (privateMaterial : Bool) : UInt16 :=
  if privateMaterial then 0x180 else 0x1ff

/-! ## Old and new file -/

/-- The second file is a replacement of the first. -/
structure Replaces (data : Bytes) (privateMaterial : Bool) (old new : Node) : Prop where
  contents : new.contents = data
  uid : new.uid = old.uid
  gid : new.gid = old.gid
  permissions : new.permissions &&& old.permissions = new.permissions
  secret : privateMaterial = true -> new.permissions &&& 0x3f = 0

/-- A file that `loadAgentConfig` accepts. -/
structure Loadable (machine : Machine) (effectiveUID : UInt32) (data : Bytes)
    (privateMaterial : Bool) (node : Node) : Prop where
  regular : node.mode &&& 0xf000 = 0x8000
  owned : node.uid = effectiveUID ∨ node.uid = 0
  guarded : node.mode &&& 0x12 = 0
  secret : privateMaterial = true -> node.mode &&& 0x3f = 0
  readable : machine.MayRead effectiveUID node
  contents : node.contents = data

/-- The replacement when its owner and mode have been set. -/
def secured (metadata : Stat) (privateMaterial : Bool) (node : Node) : Node where
  mode := (node.mode &&& 0xf000) ||| ((metadata.mode &&& keptMode privateMaterial) &&& 0xfff)
  uid := metadata.uid
  gid := metadata.gid
  contents := node.contents

section Secured

variable {machine : Machine} {effectiveUID : UInt32} {data : Bytes} {privateMaterial : Bool}
variable {inode : Nat} {metadata : Stat} {old node : Node}

theorem and_secured
    (privateMaterial : Bool)
    (node : Node)
    {bits : UInt16}
    (outside : 0xf000 &&& bits = 0)
    (inside : 0xfff &&& bits = bits) :
    (secured metadata privateMaterial node).mode &&& bits =
      metadata.mode &&& (keptMode privateMaterial &&& bits) := by
  rw [secured, and_of_changed _ _ outside inside, UInt16.and_assoc]

/-- Neither group nor others have access to a private replacement. -/
theorem secured_secret
    (node : Node)
    (secret : privateMaterial = true) :
    (secured metadata privateMaterial node).mode &&& 0x3f = 0 := by
  subst secret
  rw [and_secured _ _ (by decide) (by decide)]
  exact UInt16.and_zero

/-- A replacement gives no access that the original does not give. -/
theorem replaces_secured
    (described : metadata.Describes inode old)
    (filled : node.contents = data) :
    Replaces data privateMaterial old (secured metadata privateMaterial node) := by
  obtain ⟨_, mode, uid, gid⟩ := described
  refine ⟨filled, uid, gid, ?_, fun secret => ?_⟩
  · unfold Node.permissions
    rw [and_secured _ _ (by decide) (by decide), ← mode]
    cases privateMaterial with
    | true =>
        have kept : keptMode true &&& 0xfff = 0x180 := by decide
        have inside : (0x180 : UInt16) &&& 0xfff = 0x180 := by decide
        rw [kept, UInt16.and_assoc, UInt16.and_comm 0x180, UInt16.and_assoc, UInt16.and_comm 0xfff,
          inside, ← UInt16.and_assoc, UInt16.and_self]
    | false =>
        have kept : keptMode false &&& 0xfff = 0x1ff := by decide
        have inside : (0x1ff : UInt16) &&& 0xfff = 0x1ff := by decide
        rw [kept, UInt16.and_assoc, UInt16.and_comm 0x1ff, UInt16.and_assoc, UInt16.and_comm 0xfff,
          inside, ← UInt16.and_assoc, UInt16.and_self]
  · unfold Node.permissions
    have inside : (0xfff : UInt16) &&& 0x3f = 0x3f := by decide
    rw [UInt16.and_assoc, inside, secured_secret node secret]

/-- The process can read what it has written. -/
theorem mayRead_secured
    (described : metadata.Describes inode old)
    (readable : machine.MayRead effectiveUID old)
    (owner : effectiveUID = 0 ∨ metadata.uid = effectiveUID) :
    machine.MayRead effectiveUID (secured metadata privateMaterial node) := by
  obtain ⟨_, mode, uid, _⟩ := described
  rcases owner with superuser | own
  · exact .inl superuser
  · rcases readable with superuser | ⟨_, bit⟩ | ⟨foreign, _⟩ | ⟨foreign, _⟩
    · exact .inl superuser
    · refine .inr (.inl ⟨own, ?_⟩)
      have kept : keptMode privateMaterial &&& 0x100 = 0x100 := by cases privateMaterial <;> decide
      rw [and_secured _ _ (by decide) (by decide), kept, mode]
      exact bit
    · exact absurd (uid.symm.trans own) foreign
    · exact absurd (uid.symm.trans own) foreign

theorem loadable_secured
    (described : metadata.Describes inode old)
    (valid : validateFileMetadata metadata "agent config" false effectiveUID = .ok ())
    (readable : machine.MayRead effectiveUID old)
    (owner : effectiveUID = 0 ∨ metadata.uid = effectiveUID)
    (regular : node.mode &&& 0xf000 = 0x8000)
    (filled : node.contents = data) :
    Loadable machine effectiveUID data privateMaterial
      (secured metadata privateMaterial node) := by
  obtain ⟨_, owned, guarded⟩ := (validateFileMetadata_eq_ok _ _ _ _).mp valid
  have closed : metadata.mode &&& 0x12 = 0 := guarded
  refine ⟨?_, owned, ?_, secured_secret node, mayRead_secured described readable owner, filled⟩
  · rw [secured, and_of_kept, regular]
  · have kept : keptMode privateMaterial &&& 0x12 = 0x12 &&& keptMode privateMaterial :=
      UInt16.and_comm _ _
    rw [and_secured _ _ (by decide) (by decide), kept, ← UInt16.and_assoc, closed,
      UInt16.zero_and]

end Secured

/-! ## The disk on the way -/

/-- The files that had a name are as they were. -/
def Keeps (start disk : Disk) : Prop :=
  ∀ place label inode, start.entries place label = some inode ->
    disk.nodes inode = start.nodes inode

/-- The config is the complete old file or a complete replacement, and all other files are
as they were, but for the name of the replacement. -/
structure AllOrNothing (directory : Nat) (name replacement : String) (data : Bytes)
    (privateMaterial : Bool) (start disk : Disk) : Prop where
  kept : Keeps start disk
  others : ∀ place label, (place, label) ≠ (directory, name) ->
    (place, label) ≠ (directory, replacement) ->
      disk.entries place label = start.entries place label
  config : disk.entries directory name = start.entries directory name ∨
    ∃ old new, start.entries directory name = some old ∧
      disk.entries directory name = some new ∧
      Replaces data privateMaterial (start.nodes old) (disk.nodes new)

/-- Every name was there at the start. -/
def NothingLeft (start disk : Disk) : Prop :=
  ∀ place label, start.entries place label = none -> disk.entries place label = none

/-- The directories are as they were. -/
structure Untouched (start disk : Disk) : Prop where
  entries : disk.entries = start.entries
  kept : Keeps start disk

/-- The replacement is in the directory, under an inode number that no name had. -/
structure Drafted (directory : Nat) (replacement : String) (start : Disk) (inode : Nat)
    (node : Node) (disk : Disk) : Prop where
  absent : start.entries directory replacement = none
  fresh : ∀ place label, start.entries place label ≠ some inode
  entries : disk.entries = (start.setEntry directory replacement (some inode)).entries
  kept : Keeps start disk
  filled : disk.nodes inode = node

/-- The replacement is the config. -/
structure Installed (directory : Nat) (name : String) (data : Bytes) (privateMaterial : Bool)
    (start : Disk) (inode : Nat) (node : Node) (disk : Disk) : Prop where
  entries : disk.entries = (start.setEntry directory name (some inode)).entries
  kept : Keeps start disk
  filled : disk.nodes inode = node
  replaces : ∃ old, start.entries directory name = some old ∧
    Replaces data privateMaterial (start.nodes old) node

section Phases

variable {directory inode : Nat} {name replacement : String} {data : Bytes}
variable {privateMaterial : Bool} {start disk after : Disk} {node : Node}

theorem Disk.setEntry_self
    (disk : Disk)
    (directory : Nat)
    (name : String)
    (inode : Option Nat) :
    (disk.setEntry directory name inode).entries directory name = inode := by
  simp [Disk.setEntry]

theorem Disk.setEntry_of_ne
    (disk : Disk)
    {directory place : Nat}
    {name label : String}
    (different : (place, label) ≠ (directory, name))
    (inode : Option Nat) :
    (disk.setEntry directory name inode).entries place label = disk.entries place label := by
  by_cases same : place = directory
  · subst same
    have otherName : label ≠ name := fun equal => different (by rw [equal])
    simp [Disk.setEntry, otherName]
  · simp [Disk.setEntry, same]

theorem Keeps.of_nodes
    (kept : Keeps start disk)
    (nodes : after.nodes = disk.nodes) :
    Keeps start after := by
  intro place label inode present
  rw [nodes, kept place label inode present]

theorem Untouched.allOrNothing (untouched : Untouched start disk) :
    AllOrNothing directory name replacement data privateMaterial start disk where
  kept := untouched.kept
  others place label _ _ := by rw [untouched.entries]
  config := .inl (by rw [untouched.entries])

theorem Untouched.nothingLeft (untouched : Untouched start disk) : NothingLeft start disk := by
  intro place label absent
  rw [untouched.entries, absent]

/-- Handles do not matter. -/
theorem Untouched.of_same
    (untouched : Untouched start disk)
    (entries : after.entries = disk.entries)
    (nodes : after.nodes = disk.nodes) :
    Untouched start after :=
  ⟨entries.trans untouched.entries, untouched.kept.of_nodes nodes⟩

theorem Drafted.of_same
    (drafted : Drafted directory replacement start inode node disk)
    (entries : after.entries = disk.entries)
    (nodes : after.nodes = disk.nodes) :
    Drafted directory replacement start inode node after where
  absent := drafted.absent
  fresh := drafted.fresh
  entries := entries.trans drafted.entries
  kept := drafted.kept.of_nodes nodes
  filled := by rw [nodes, drafted.filled]

theorem Installed.of_same
    (installed : Installed directory name data privateMaterial start inode node disk)
    (entries : after.entries = disk.entries)
    (nodes : after.nodes = disk.nodes) :
    Installed directory name data privateMaterial start inode node after where
  entries := entries.trans installed.entries
  kept := installed.kept.of_nodes nodes
  filled := by rw [nodes, installed.filled]
  replaces := installed.replaces

/-- A new file under a new name is a draft. -/
theorem Untouched.draft
    (untouched : Untouched start disk)
    (absent : disk.entries directory replacement = none)
    (unused : ¬disk.Live inode) :
    Drafted directory replacement start inode node
      ((disk.setEntry directory replacement (some inode)).setNode inode node) := by
  have fresh : ∀ place label, start.entries place label ≠ some inode := by
    intro place label present
    exact unused (.inl ⟨place, label, by rw [untouched.entries, present]⟩)
  refine ⟨by rw [← untouched.entries, absent], fresh, ?_, ?_, ?_⟩
  · change Function.update disk.entries directory _ = Function.update start.entries directory _
    rw [untouched.entries]
  · intro place label found present
    have different : found ≠ inode := fun equal => fresh place label (equal ▸ present)
    rw [← untouched.kept place label found present]
    exact Function.update_of_ne different _ _
  · exact Function.update_self _ _ _

theorem Drafted.present (drafted : Drafted directory replacement start inode node disk) :
    disk.entries directory replacement = some inode := by
  rw [drafted.entries, Disk.setEntry_self]

theorem Drafted.setNode
    (drafted : Drafted directory replacement start inode node disk)
    (changed : Node) :
    Drafted directory replacement start inode changed (disk.setNode inode changed) where
  absent := drafted.absent
  fresh := drafted.fresh
  entries := drafted.entries
  kept := by
    intro place label found present
    have different : found ≠ inode := fun equal => drafted.fresh place label (equal ▸ present)
    rw [← drafted.kept place label found present]
    exact Function.update_of_ne different _ _
  filled := Function.update_self _ _ _

/-- A draft changes nothing but its own name. -/
theorem Drafted.allOrNothing
    (drafted : Drafted directory replacement start inode node disk)
    (different : replacement ≠ name) :
    AllOrNothing directory name replacement data privateMaterial start disk where
  kept := drafted.kept
  others place label _ other := by rw [drafted.entries, Disk.setEntry_of_ne _ other]
  config := by
    have other : (directory, name) ≠ (directory, replacement) := by simpa using different.symm
    exact .inl (by rw [drafted.entries, Disk.setEntry_of_ne _ other])

/-- The clean-up removes a draft. -/
theorem Drafted.remove
    (drafted : Drafted directory replacement start inode node disk) :
    Untouched start (disk.setEntry directory replacement none) := by
  refine ⟨?_, drafted.kept⟩
  funext place label
  by_cases own : (place, label) = (directory, replacement)
  · cases own
    rw [Disk.setEntry_self, drafted.absent]
  · rw [Disk.setEntry_of_ne _ own, drafted.entries, Disk.setEntry_of_ne _ own]

/-- The rename makes a draft the config. -/
theorem Drafted.install
    (drafted : Drafted directory replacement start inode node disk)
    (replaces : ∃ old, start.entries directory name = some old ∧
      Replaces data privateMaterial (start.nodes old) node) :
    Installed directory name data privateMaterial start inode node
      ((disk.setEntry directory replacement none).setEntry directory name (some inode)) where
  entries := by
    funext place label
    by_cases config : (place, label) = (directory, name)
    · cases config
      rw [Disk.setEntry_self, Disk.setEntry_self]
    · rw [Disk.setEntry_of_ne _ config, Disk.setEntry_of_ne _ config, drafted.remove.entries]
  kept := drafted.kept
  filled := drafted.filled
  replaces := replaces

theorem Installed.present
    (installed : Installed directory name data privateMaterial start inode node disk) :
    disk.entries directory name = some inode := by
  rw [installed.entries, Disk.setEntry_self]

theorem Installed.allOrNothing
    (installed : Installed directory name data privateMaterial start inode node disk) :
    AllOrNothing directory name replacement data privateMaterial start disk where
  kept := installed.kept
  others place label other _ := by rw [installed.entries, Disk.setEntry_of_ne _ other]
  config := by
    obtain ⟨old, present, replaces⟩ := installed.replaces
    refine .inr ⟨old, inode, present, installed.present, ?_⟩
    rw [installed.filled]
    exact replaces

theorem Installed.nothingLeft
    (installed : Installed directory name data privateMaterial start inode node disk) :
    NothingLeft start disk := by
  intro place label absent
  obtain ⟨old, present, _⟩ := installed.replaces
  have other : (place, label) ≠ (directory, name) := by
    rintro ⟨⟩
    exact absurd present (by simp [absent])
  rw [installed.entries, Disk.setEntry_of_ne _ other, absent]

end Phases

/-! ## The calls -/

/-- The disk answers, and the answers are as expected. -/
def Disk.serving
    (machine : Machine)
    (effectiveUID : UInt32)
    (fine : FileEvent -> Prop)
    (disk : Disk)
    (request : Call)
    (answer : request.Answer)
    (after : Disk) : Prop :=
  disk.Serves machine effectiveUID request answer after ∧ fine ⟨request, answer⟩

section Calls

variable {Key : Type} {platform : Platform Key} {machine : Machine} {effectiveUID : UInt32}
variable {fine : FileEvent -> Prop}
variable {directory inode parent fd : Nat} {name replacement : String} {data : Bytes}
variable {privateMaterial : Bool} {start disk : Disk} {node : Node} {metadata : Stat}

/-- All rounds of `writeAll` together add the whole data. -/
theorem survives_writeAll
    (different : replacement ≠ name)
    (rounds : Nat)
    (rest : Bytes)
    (drafted : Drafted directory replacement start inode node disk)
    (opened : disk.handles.lookup fd = some (.writing inode)) :
    (writeAll platform fd rounds rest).Survives (Disk.serving machine effectiveUID fine)
      (AllOrNothing directory name replacement data privateMaterial start) disk
      fun result after =>
        ∃ filled, Drafted directory replacement start inode filled after ∧
          after.handles = disk.handles ∧
          (result = .ok () -> filled = { node with contents := node.contents ++ rest }) := by
  induction rounds generalizing rest disk node with
  | zero => exact drafted.allOrNothing different
  | succ rounds inductionHypothesis =>
      unfold writeAll
      by_cases finished : rest = []
      · rw [if_pos finished, survives_pure]
        refine ⟨drafted.allOrNothing different, node, drafted, rfl, fun _ => ?_⟩
        rw [finished, List.append_nil]
      · rw [if_neg finished, survives_perform_bind]
        refine ⟨drafted.allOrNothing different, fun answer after served => ?_⟩
        cases answer with
        | interrupted =>
            obtain rfl : after = disk := served.1
            exact inductionHypothesis rest drafted opened
        | failed code =>
            obtain rfl : after = disk := served.1
            exact ⟨drafted.allOrNothing different, node, drafted, rfl, fun ended => nomatch ended⟩
        | wrote count =>
            obtain ⟨⟨written, found, rfl⟩, _⟩ := served
            obtain rfl : written = inode := by simpa using found.symm.trans opened
            rw [drafted.filled]
            refine (inductionHypothesis (rest.drop count.val) (drafted.setNode _) opened).mono ?_
            rintro result after _ ⟨filled, drafted', handles, complete⟩
            refine ⟨filled, drafted', handles, fun ended => ?_⟩
            rw [complete ended]
            simp

/-- The replacement gets the owner and the narrowed mode of the original. -/
theorem survives_secureReplacement
    (different : replacement ≠ name)
    (drafted : Drafted directory replacement start inode node disk)
    (opened : disk.handles.lookup fd = some (.writing inode)) :
    (secureReplacement platform fd metadata privateMaterial).Survives
      (Disk.serving machine effectiveUID fine)
      (AllOrNothing directory name replacement data privateMaterial start) disk
      fun result after =>
        ∃ filled, Drafted directory replacement start inode filled after ∧
          after.handles = disk.handles ∧
          (result = .ok () -> filled = secured metadata privateMaterial node ∧
            (effectiveUID = 0 ∨ metadata.uid = node.uid)) := by
  unfold secureReplacement
  rw [survives_perform_bind]
  refine ⟨drafted.allOrNothing different, fun owned after served => ?_⟩
  cases owned with
  | error code =>
      obtain rfl : after = disk := served.1
      exact ⟨drafted.allOrNothing different, node, drafted, rfl, fun ended => nomatch ended⟩
  | ok _ =>
      obtain ⟨⟨changed, found, owner, rfl⟩, _⟩ := served
      obtain rfl : changed = inode := by simpa using found.symm.trans opened
      rw [drafted.filled] at owner
      have drafted' := drafted.setNode { node with uid := metadata.uid, gid := metadata.gid }
      rw [drafted.filled]
      refine ⟨drafted'.allOrNothing different, fun narrowed after served => ?_⟩
      cases narrowed with
      | error code =>
          obtain rfl : after = _ := served.1
          exact ⟨drafted'.allOrNothing different, _, drafted', rfl, fun ended => nomatch ended⟩
      | ok _ =>
          obtain ⟨⟨changed', found', rfl⟩, _⟩ := served
          obtain rfl : changed' = changed := by simpa using found'.symm.trans opened
          rw [drafted'.filled]
          have drafted'' := drafted'.setNode (secured metadata privateMaterial node)
          refine ⟨drafted''.allOrNothing different, fun synced after served => ?_⟩
          cases synced with
          | error code =>
              obtain rfl : after = _ := served.1
              exact ⟨drafted''.allOrNothing different, _, drafted'', rfl,
                fun ended => nomatch ended⟩
          | ok _ =>
              obtain rfl : after = _ := served.1
              exact ⟨drafted''.allOrNothing different, _, drafted'', rfl,
                fun _ => ⟨rfl, owner⟩⟩

/-- A descriptor is closed, or is left open by a failure. -/
theorem survives_closing
    {crash : Disk -> Prop}
    (intact : ∀ after, after = disk ∨ after = disk.dropHandle fd -> crash after) :
    (closing fd : Routine Unit).Survives (Disk.serving machine effectiveUID fine) crash disk
      fun _ after => after = disk ∨ after = disk.dropHandle fd := by
  refine ⟨intact disk (.inl rfl), fun answer after served => ?_⟩
  have closed : after = disk ∨ after = disk.dropHandle fd := by
    cases answer with
    | ok _ => exact .inr served.1
    | error code => exact served.1
  exact ⟨intact after closed, closed⟩

/-- A descriptor stays open when another one is closed. -/
theorem lookup_of_closed
    {handle : Handle}
    {kept : Nat}
    {after : Disk}
    (opened : disk.handles.lookup kept = some handle)
    (different : kept ≠ fd)
    (closed : after = disk ∨ after = disk.dropHandle fd) :
    after.handles.lookup kept = some handle := by
  rcases closed with rfl | rfl
  · exact opened
  · rw [Disk.dropHandle, Finmap.lookup_erase_ne different, opened]

/-- What is in the config directory when the clean-up begins. -/
def Reached (directory : Nat) (name replacement : String) (data : Bytes)
    (privateMaterial : Bool) (start : Disk) (inode : Nat) (disk : Disk) : Prop :=
  (∃ node, Drafted directory replacement start inode node disk) ∨
    ∃ node, Installed directory name data privateMaterial start inode node disk

/-- The replacement is renamed over the config, or is left as it is. -/
theorem survives_install
    (different : replacement ≠ name)
    (drafted : Drafted directory replacement start inode node disk)
    (opened : disk.handles.lookup parent = some (.directory directory))
    (replaces : ∃ old, start.entries directory name = some old ∧
      Replaces data privateMaterial (start.nodes old) node) :
    (install platform parent name replacement metadata).Survives
      (Disk.serving machine effectiveUID fine)
      (AllOrNothing directory name replacement data privateMaterial start) disk
      fun result after =>
        Reached directory name replacement data privateMaterial start inode after ∧
          after.handles = disk.handles ∧
          (result = .ok () ->
            Installed directory name data privateMaterial start inode node after) := by
  have intact : AllOrNothing directory name replacement data privateMaterial start disk :=
    drafted.allOrNothing different
  unfold install
  rw [survives_perform_bind]
  refine ⟨intact, fun status after served => ?_⟩
  cases status with
  | error code =>
      obtain rfl : after = disk := served.1
      exact ⟨intact, .inl ⟨node, drafted⟩, rfl, fun ended => nomatch ended⟩
  | ok current =>
      obtain ⟨⟨rfl, _⟩, _⟩ := served
      by_cases same : sameFile metadata current = true
      · dsimp only
        rw [if_pos same]
        refine ⟨intact, fun renamed after' served => ?_⟩
        cases renamed with
        | error code =>
            obtain rfl : after' = after := served.1
            exact ⟨intact, .inl ⟨node, drafted⟩, rfl, fun ended => nomatch ended⟩
        | ok _ =>
            obtain ⟨⟨place, moved, found, present, rfl⟩, _⟩ := served
            obtain rfl : place = directory := by simpa using found.symm.trans opened
            obtain rfl : moved = inode := by simpa using present.symm.trans drafted.present
            have installed := drafted.install replaces
            refine ⟨installed.allOrNothing, fun synced final served => ?_⟩
            cases synced with
            | error code =>
                obtain rfl : final = _ := served.1
                exact ⟨installed.allOrNothing, .inr ⟨node, installed⟩, rfl,
                  fun ended => nomatch ended⟩
            | ok _ =>
                obtain rfl : final = _ := served.1
                exact ⟨installed.allOrNothing, .inr ⟨node, installed⟩, rfl, fun _ => installed⟩
      · dsimp only
        rw [if_neg same]
        exact ⟨intact, .inl ⟨node, drafted⟩, rfl, fun ended => nomatch ended⟩

/-- The replacement is filled, secured and renamed, or is left in the directory. -/
theorem survives_fillAndInstall
    {old : Nat}
    (different : replacement ≠ name)
    (rounds : Nat)
    (drafted : Drafted directory replacement start inode node disk)
    (empty : node.contents = [])
    (opened : disk.handles.lookup fd = some (.writing inode))
    (parentOpened : disk.handles.lookup parent = some (.directory directory))
    (original : start.entries directory name = some old)
    (described : metadata.Describes old (start.nodes old)) :
    (fillAndInstall platform rounds parent fd name replacement data metadata
      privateMaterial).Survives (Disk.serving machine effectiveUID fine)
      (AllOrNothing directory name replacement data privateMaterial start) disk
      fun result after =>
        Reached directory name replacement data privateMaterial start inode after ∧
          after.handles.lookup parent = some (.directory directory) ∧
          (result = .ok () -> (effectiveUID = 0 ∨ metadata.uid = node.uid) ∧
            Installed directory name data privateMaterial start inode
              (secured metadata privateMaterial { node with contents := data }) after) := by
  have other : parent ≠ fd := by
    rintro rfl
    exact absurd (parentOpened.symm.trans opened) (by simp)
  -- the descriptor is open all along
  have filling :
      (do
        writeAll platform fd rounds data
        secureReplacement platform fd metadata privateMaterial : Routine Unit).Survives
        (Disk.serving machine effectiveUID fine)
        (AllOrNothing directory name replacement data privateMaterial start) disk
        fun result after => ∃ filled,
          Drafted directory replacement start inode filled after ∧ after.handles = disk.handles ∧
          (result = .ok () ->
            filled = secured metadata privateMaterial { node with contents := data } ∧
              (effectiveUID = 0 ∨ metadata.uid = node.uid)) := by
    refine Survives.bind (survives_writeAll different rounds data drafted opened) ?_ ?_
    · rintro ⟨⟩ after _ ⟨filled, drafted', handles, complete⟩
      obtain rfl := complete rfl
      rw [empty, List.nil_append] at drafted'
      refine (survives_secureReplacement different drafted' (handles ▸ opened)).mono ?_
      rintro result final _ ⟨filled, drafted'', handles', complete⟩
      exact ⟨filled, drafted'', handles'.trans handles, complete⟩
    · rintro error after ⟨filled, drafted', handles, _⟩
      exact ⟨filled, drafted', handles, fun ended => nomatch ended⟩
  unfold fillAndInstall
  refine Survives.attempt_bind filling ?_
  rintro result after intact ⟨filled, drafted', handles, complete⟩
  have closes : ∀ final, final = after ∨ final = after.dropHandle fd ->
      Drafted directory replacement start inode filled final ∧
        final.handles.lookup parent = some (.directory directory) := by
    intro final closed
    refine ⟨?_, lookup_of_closed (handles ▸ parentOpened) other closed⟩
    rcases closed with rfl | rfl
    · exact drafted'
    · exact drafted'.of_same rfl rfl
  cases result with
  | error error =>
      refine Survives.bind (survives_closing fun final closed =>
        (closes final closed).1.allOrNothing different) ?_ ?_
      · rintro ⟨⟩ final intact closed
        obtain ⟨drafted'', stillOpened⟩ := closes final closed
        exact ⟨intact, .inl ⟨filled, drafted''⟩, stillOpened, fun ended => nomatch ended⟩
      · rintro error final closed
        obtain ⟨drafted'', stillOpened⟩ := closes final closed
        exact ⟨.inl ⟨filled, drafted''⟩, stillOpened, fun ended => nomatch ended⟩
  | ok _ =>
      obtain ⟨rfl, owner⟩ := complete rfl
      refine ⟨intact, fun closing final served => ?_⟩
      cases closing with
      | error code =>
          obtain ⟨drafted'', stillOpened⟩ := closes final served.1
          exact ⟨drafted''.allOrNothing different, .inl ⟨_, drafted''⟩, stillOpened,
            fun ended => nomatch ended⟩
      | ok _ =>
          obtain ⟨drafted'', stillOpened⟩ := closes final (.inr served.1)
          refine (survives_install different drafted'' stillOpened
            ⟨old, original, replaces_secured described rfl⟩).mono ?_
          rintro result last _ ⟨reached, handles', installed⟩
          exact ⟨reached, handles' ▸ stillOpened, fun ended => ⟨owner, installed ended⟩⟩

/-- A clean-up that fails finds nothing to remove. -/
def CleanUpWorks (fine : FileEvent -> Prop) : Prop :=
  ∀ parent name code, fine ⟨.unlinkat parent name, .error code⟩ -> code = noEntry

/-- The name of the replacement is removed, if it is still there. -/
theorem survives_removeReplacement
    (different : replacement ≠ name)
    (absent : start.entries directory replacement = none)
    (reached : Reached directory name replacement data privateMaterial start inode disk)
    (opened : disk.handles.lookup parent = some (.directory directory)) :
    (removeReplacement parent replacement : Routine Unit).Survives
      (Disk.serving machine effectiveUID fine)
      (AllOrNothing directory name replacement data privateMaterial start) disk
      fun _ after => (CleanUpWorks fine -> NothingLeft start after) ∧
        ∀ node, Installed directory name data privateMaterial start inode node disk ->
          Installed directory name data privateMaterial start inode node after := by
  have other : (directory, replacement) ≠ (directory, name) := by simpa using different
  unfold removeReplacement
  rw [survives_perform_bind]
  rcases reached with ⟨node, drafted⟩ | ⟨node, installed⟩
  · have renamed : ∀ node,
        ¬Installed directory name data privateMaterial start inode node disk := by
      intro node installed
      have present := drafted.present
      rw [installed.entries, Disk.setEntry_of_ne _ other, absent] at present
      cases present
    refine ⟨drafted.allOrNothing different, fun answer after served => ?_⟩
    cases answer with
    | ok _ =>
        obtain ⟨⟨place, found, _, rfl⟩, _⟩ := served
        obtain rfl : place = directory := by simpa using found.symm.trans opened
        exact ⟨drafted.remove.allOrNothing, fun _ => drafted.remove.nothingLeft,
          fun node installed => (renamed node installed).elim⟩
    | error code =>
        obtain ⟨⟨rfl, missing⟩, expected⟩ := served
        refine ⟨drafted.allOrNothing different, fun works => ?_, fun _ installed => installed⟩
        have gone := missing (works _ _ _ expected) directory opened
        rw [drafted.present] at gone
        cases gone
  · refine ⟨installed.allOrNothing, fun answer after served => ?_⟩
    cases answer with
    | ok _ =>
        obtain ⟨⟨place, found, present, _⟩, _⟩ := served
        obtain rfl : place = directory := by simpa using found.symm.trans opened
        rw [installed.entries, Disk.setEntry_of_ne _ other] at present
        exact absurd absent present
    | error code =>
        obtain ⟨⟨rfl, _⟩, _⟩ := served
        exact ⟨installed.allOrNothing, fun _ => installed.nothingLeft,
          fun _ installed => installed⟩

/-- What `replaceConfigFile` leaves behind. -/
structure Finished (machine : Machine) (effectiveUID : UInt32) (fine : FileEvent -> Prop)
    (directory : Nat) (name : String) (data : Bytes) (privateMaterial : Bool) (start : Disk)
    (result : Except Failure Unit) (disk : Disk) : Prop where
  tidy : CleanUpWorks fine -> NothingLeft start disk
  loadable : result = .ok () -> ∃ new, disk.entries directory name = some new ∧
    Loadable machine effectiveUID data privateMaterial (disk.nodes new)

theorem Finished.of_same
    {result : Except Failure Unit}
    {after : Disk}
    (finished : Finished machine effectiveUID fine directory name data privateMaterial start
      result disk)
    (entries : after.entries = disk.entries)
    (nodes : after.nodes = disk.nodes) :
    Finished machine effectiveUID fine directory name data privateMaterial start result after := by
  refine ⟨fun works place label absent => ?_, fun ended => ?_⟩
  · rw [entries, finished.tidy works place label absent]
  · rw [entries, nodes]
    exact finished.loadable ended

/-- An early error leaves everything as it was. -/
theorem Untouched.finished
    (untouched : Untouched start disk)
    (error : Failure) :
    Finished machine effectiveUID fine directory name data privateMaterial start (.error error)
      disk :=
  ⟨fun _ => untouched.nothingLeft, fun ended => nomatch ended⟩

/-- An early error, before anything has changed. -/
theorem survives_raise
    {crash : Disk -> Prop}
    (error : AgentError)
    (intact : crash disk)
    (untouched : Untouched start disk) :
    (raise error : Routine Unit).Survives (Disk.serving machine effectiveUID fine) crash disk
      (Finished machine effectiveUID fine directory name data privateMaterial start) :=
  ⟨intact, untouched.finished _⟩

/-- A descriptor that is closed at the end does not matter. -/
theorem survives_ensuring_closing
    {body : Routine Unit}
    (survives : body.Survives (Disk.serving machine effectiveUID fine)
      (AllOrNothing directory name replacement data privateMaterial start) disk
      (Finished machine effectiveUID fine directory name data privateMaterial start)) :
    (body.ensuring (closing fd)).Survives (Disk.serving machine effectiveUID fine)
      (AllOrNothing directory name replacement data privateMaterial start) disk
      (Finished machine effectiveUID fine directory name data privateMaterial start) := by
  refine Survives.ensuring survives fun result after intact finished => ?_
  refine (survives_closing fun final closed => ?_).mono fun outcome final _ closed => ?_
  · rcases closed with rfl | rfl
    · exact intact
    · exact ⟨intact.kept, intact.others, intact.config⟩
  · have unchanged : ∀ result, Finished machine effectiveUID fine directory name data
        privateMaterial start result after ->
        Finished machine effectiveUID fine directory name data privateMaterial start result
          final := by
      intro result finished
      rcases closed with rfl | rfl
      · exact finished
      · exact finished.of_same rfl rfl
    cases outcome with
    | ok _ => exact unchanged result finished
    | error error => exact ⟨(unchanged result finished).tidy, fun ended => nomatch ended⟩

end Calls

/-! ## The whole replacement -/

section Replacement

variable {Key : Type} {platform : Platform Key} {machine : Machine} {process : Process}
variable {fine : FileEvent -> Prop} {rounds directory parent original : Nat} {name : String}
variable {data : Bytes} {privateMaterial : Bool} {start disk : Disk}

theorem replacementName_ne (name uuid : String) : replacementName name uuid ≠ name := by
  intro equal
  have lengths := congrArg String.length equal
  simp only [replacementName, String.length_append] at lengths
  have dot : ".".length = 1 := rfl
  omega

/-- The part that has opened the original. -/
theorem survives_replaceOriginal
    {old : Nat}
    (untouched : Untouched start disk)
    (parentOpened : disk.handles.lookup parent = some (.directory directory))
    (originalOpened : disk.handles.lookup original = some (.reading old))
    (present : start.entries directory name = some old)
    (readable : machine.MayRead process.effectiveUID (start.nodes old)) :
    (replaceOriginal platform rounds parent original name data privateMaterial process).Survives
      (Disk.serving machine process.effectiveUID fine)
      (AllOrNothing directory name (replacementName name process.uuid) data privateMaterial start)
      disk
      (Finished machine process.effectiveUID fine directory name data privateMaterial start) := by
  have different := replacementName_ne name process.uuid
  unfold replaceOriginal
  rw [survives_perform_bind]
  refine ⟨untouched.allOrNothing, fun status after served => ?_⟩
  cases status with
  | error code =>
      obtain rfl : after = disk := served.1
      exact survives_raise _ untouched.allOrNothing untouched
  | ok metadata =>
      obtain ⟨⟨rfl, _, describes⟩, _⟩ := served
      have described := describes old (.inl originalOpened)
      rw [untouched.kept directory name old present] at described
      dsimp only
      cases checked : validateFileMetadata metadata "agent config" false process.effectiveUID with
      | error error => exact ⟨untouched.allOrNothing, untouched.finished _⟩
      | ok _ =>
          refine ⟨untouched.allOrNothing, fun created draft served => ?_⟩
          cases created with
          | error code =>
              obtain rfl : draft = after := served.1
              exact survives_raise _ untouched.allOrNothing untouched
          | ok fd =>
              obtain ⟨⟨place, inode, gid, mask, found, free, unused, closed, rfl⟩, _⟩ := served
              obtain rfl : place = directory := by simpa using found.symm.trans parentOpened
              have drafts : ∀ node, Drafted place (replacementName name process.uuid) start inode
                  node (((after.setEntry place (replacementName name process.uuid)
                    (some inode)).setNode inode node).setHandle fd (.writing inode)) :=
                fun node => (untouched.draft free unused).of_same rfl rfl
              have absent : start.entries place (replacementName name process.uuid) = none := by
                rw [← untouched.entries, free]
              have other : parent ≠ fd := by
                rintro rfl
                exact absurd (parentOpened.symm.trans closed) (by simp)
              have stillOpened : (after.handles.insert fd (.writing inode)).lookup parent =
                  some (.directory place) := by
                rw [Finmap.lookup_insert_of_ne _ other, parentOpened]
              refine Survives.ensuring (survives_fillAndInstall different rounds (drafts _) rfl
                (Finmap.lookup_insert _) stillOpened present described) ?_
              rintro result final _ ⟨reached, opened, installed⟩
              refine (survives_removeReplacement different absent reached opened).mono ?_
              rintro outcome last _ ⟨tidy, kept⟩
              have finished : Finished machine process.effectiveUID fine place name data
                  privateMaterial start result last := by
                refine ⟨tidy, fun ended => ?_⟩
                obtain ⟨owner, replaced⟩ := installed ended
                have there := kept _ replaced
                refine ⟨inode, there.present, ?_⟩
                rw [there.filled]
                exact loadable_secured described checked readable owner (and_of_created mask) rfl
              cases outcome with
              | ok _ => exact finished
              | error error => exact ⟨finished.tidy, fun ended => nomatch ended⟩

/-- The part that has opened the config directory. -/
theorem survives_replaceInDirectory
    (untouched : Untouched start disk)
    (opened : disk.handles.lookup parent = some (.directory directory)) :
    (replaceInDirectory platform rounds parent name data privateMaterial process).Survives
      (Disk.serving machine process.effectiveUID fine)
      (AllOrNothing directory name (replacementName name process.uuid) data privateMaterial start)
      disk
      (Finished machine process.effectiveUID fine directory name data privateMaterial start) := by
  unfold replaceInDirectory
  rw [survives_perform_bind]
  refine ⟨untouched.allOrNothing, fun status after served => ?_⟩
  have unchanged : after = disk := by
    cases status with
    | ok st => exact served.1.1
    | error code => exact served.1
  subst unchanged
  by_cases trusted : trustedDirectory status process.effectiveUID = true
  · rw [if_pos trusted, survives_perform_bind]
    refine ⟨untouched.allOrNothing, fun opening final served => ?_⟩
    cases opening with
    | error code =>
        obtain rfl : final = after := served.1
        exact survives_raise _ untouched.allOrNothing untouched
    | ok original =>
        obtain ⟨⟨place, found, old, present, _, readable, closed, rfl⟩, _⟩ := served
        obtain rfl : place = directory := by simpa using found.symm.trans opened
        have other : parent ≠ original := by
          rintro rfl
          exact absurd (opened.symm.trans closed) (by simp)
        have stillOpened : (after.handles.insert original (.reading old)).lookup parent =
            some (.directory place) := by
          rw [Finmap.lookup_insert_of_ne _ other, opened]
        rw [untouched.entries] at present
        rw [untouched.kept place name old present] at readable
        exact survives_ensuring_closing (survives_replaceOriginal (untouched.of_same rfl rfl)
          stillOpened (Finmap.lookup_insert _) present readable)
  · rw [if_neg trusted]
    exact survives_raise _ untouched.allOrNothing untouched

/-- The config directory of a path, which may be missing. -/
theorem survives_replaceConfigFile
    (rounds : Nat)
    (path : String)
    (data : Bytes)
    (privateMaterial : Bool)
    (start : Disk)
    (located : ∀ place, machine.directoryAt (platform.parentPath path) = some place ->
      place = directory) :
    (replaceConfigFile platform rounds path data privateMaterial process).Survives
      (Disk.serving machine process.effectiveUID fine)
      (AllOrNothing directory (platform.lastPathComponent path)
        (replacementName (platform.lastPathComponent path) process.uuid) data privateMaterial start)
      start
      (Finished machine process.effectiveUID fine directory (platform.lastPathComponent path) data
        privateMaterial start) := by
  have untouched : Untouched start start := ⟨rfl, fun _ _ _ _ => rfl⟩
  unfold replaceConfigFile
  rw [survives_perform_bind]
  refine ⟨untouched.allOrNothing, fun opening after served => ?_⟩
  cases opening with
  | error code =>
      obtain rfl : after = start := served.1
      exact survives_raise _ untouched.allOrNothing untouched
  | ok parent =>
      obtain ⟨⟨place, found, _, rfl⟩, _⟩ := served
      obtain rfl := located place found
      exact survives_ensuring_closing
        (survives_replaceInDirectory (untouched.of_same rfl rfl) (Finmap.lookup_insert _))

end Replacement

/-! ## Loading -/

/-- A process can open one more file. -/
theorem Disk.exists_unused (disk : Disk) : ∃ fd, disk.handles.lookup fd = none := by
  obtain ⟨fd, unused⟩ := Infinite.exists_notMem_finset disk.handles.keys
  exact ⟨fd, Finmap.lookup_eq_none.mpr fun member => unused (Finmap.mem_keys.mpr member)⟩

/-- Every call can be answered without an unfounded failure. -/
theorem Disk.exists_servesSoundly
    (machine : Machine)
    (effectiveUID : UInt32)
    (disk : Disk)
    (request : Call) :
    ∃ answer after, disk.ServesSoundly machine effectiveUID request answer after := by
  by_cases possible : ∃ answer after,
      disk.Serves machine effectiveUID request answer after ∧ ¬Failed request answer
  · obtain ⟨answer, after, served, succeeded⟩ := possible
    exact ⟨answer, after, served, fun failed => absurd failed succeeded⟩
  · push Not at possible
    have failing : ∃ answer after, disk.Serves machine effectiveUID request answer after := by
      cases request with
      | readToEnd fd => exact ⟨none, disk, rfl⟩
      | write fd bytes => exact ⟨.interrupted, disk, rfl⟩
      | close fd => exact ⟨.error 0, disk, .inl rfl⟩
      | unlinkat parent name => exact ⟨.error 0, disk, rfl, fun missing => nomatch missing⟩
      | _ => exact ⟨.error 0, disk, rfl⟩
    obtain ⟨answer, after, served⟩ := failing
    exact ⟨answer, after, served, fun _ => possible⟩

section Loading

variable {Key : Type} {platform : Platform Key} {machine : Machine} {effectiveUID : UInt32}
variable {directory inode fd : Nat} {path name label : String} {data : Bytes}
variable {privateMaterial : Bool} {disk : Disk}

/-- An open file is described by `fstat`. -/
theorem fstat_servesSoundly
    {answer : Except Nat Stat}
    {after : Disk}
    (opened : disk.handles.lookup fd = some (.reading inode))
    (served : disk.ServesSoundly machine effectiveUID (.fstat fd) answer after) :
    after = disk ∧ ∃ st, answer = .ok st ∧ st.Describes inode (disk.nodes inode) := by
  cases answer with
  | ok st =>
      obtain ⟨⟨unchanged, _, describes⟩, _⟩ := served
      exact ⟨unchanged, st, rfl, describes inode (.inl opened)⟩
  | error code =>
      have possible : disk.Serves machine effectiveUID (.fstat fd)
          (.ok ⟨0, inode, (disk.nodes inode).mode, (disk.nodes inode).uid, (disk.nodes inode).gid⟩)
          disk := by
        refine ⟨rfl, by simp [opened], fun found same => ?_⟩
        obtain rfl : inode = found := by simpa [opened] using same
        exact ⟨rfl, rfl, rfl, rfl⟩
      obtain ⟨_, equal⟩ := served.2 ⟨code, rfl⟩ _ _ possible
      cases equal

/-- The config can be opened. -/
theorem openFile_servesSoundly
    {answer : Except Nat Nat}
    {after : Disk}
    (located : machine.locate path = some (directory, name))
    (present : disk.entries directory name = some inode)
    (loadable : Loadable machine effectiveUID data privateMaterial (disk.nodes inode))
    (served : disk.ServesSoundly machine effectiveUID (.openFile path) answer after) :
    ∃ fd, answer = .ok fd ∧ after = disk.setHandle fd (.reading inode) := by
  cases answer with
  | ok fd =>
      obtain ⟨⟨place, label, found, other, there, _, _, _, rfl⟩, _⟩ := served
      obtain ⟨rfl, rfl⟩ : place = directory ∧ label = name := by
        simpa using found.symm.trans located
      obtain rfl : other = inode := by simpa using there.symm.trans present
      exact ⟨fd, rfl, rfl⟩
  | error code =>
      obtain ⟨fd, unused⟩ := disk.exists_unused
      have notLink : (disk.nodes inode).mode &&& 0xf000 ≠ 0xa000 := by
        rw [loadable.regular]
        decide
      have possible : disk.Serves machine effectiveUID (.openFile path) (.ok fd)
          (disk.setHandle fd (.reading inode)) :=
        ⟨directory, name, located, inode, present, notLink, loadable.readable, unused, rfl⟩
      obtain ⟨_, equal⟩ := served.2 ⟨code, rfl⟩ _ _ possible
      cases equal

/-- An open file is read as a whole. -/
theorem readToEnd_servesSoundly
    {answer : Option Bytes}
    {after : Disk}
    (opened : disk.handles.lookup fd = some (.reading inode))
    (served : disk.ServesSoundly machine effectiveUID (.readToEnd fd) answer after) :
    after = disk ∧ answer = some (disk.nodes inode).contents := by
  cases answer with
  | some bytes =>
      obtain ⟨⟨unchanged, found, reading, rfl⟩, _⟩ := served
      obtain rfl : found = inode := by simpa using reading.symm.trans opened
      exact ⟨unchanged, rfl⟩
  | none =>
      have possible : disk.Serves machine effectiveUID (.readToEnd fd)
          (some (disk.nodes inode).contents) disk := ⟨rfl, inode, opened, rfl⟩
      cases served.2 rfl _ _ possible

/-- A loadable file passes the check of its metadata. -/
theorem Loadable.validate
    {node : Node}
    {st : Stat}
    (loadable : Loadable machine effectiveUID data privateMaterial node)
    (described : st.Describes inode node)
    (label : String)
    {asPrivate : Bool}
    (implied : asPrivate = true -> privateMaterial = true) :
    validateFileMetadata st label asPrivate effectiveUID = .ok () := by
  obtain ⟨_, mode, uid, _⟩ := described
  rw [validateFileMetadata_eq_ok, mode, uid]
  refine ⟨loadable.regular, loadable.owned, ?_⟩
  cases asPrivate with
  | true => exact loadable.secret (implied rfl)
  | false => exact loadable.guarded

/-- The config can be read. -/
theorem survives_readSafeFile
    (label : String)
    (located : machine.locate path = some (directory, name))
    (present : disk.entries directory name = some inode)
    (loadable : Loadable machine effectiveUID data privateMaterial (disk.nodes inode)) :
    (readSafeFile platform path label false effectiveUID).Survives
      (Disk.ServesSoundly machine effectiveUID) (fun _ => True) disk
      fun result _ => ∃ st, result = .ok (data, st) ∧ st.Describes inode (disk.nodes inode) := by
  unfold readSafeFile
  have opening : (openSafeFile platform path label false effectiveUID).Survives
      (Disk.ServesSoundly machine effectiveUID) (fun _ => True) disk
      fun result after => ∃ fd, result = .ok fd ∧ after = disk.setHandle fd (.reading inode) := by
    unfold openSafeFile
    rw [survives_perform_bind]
    refine ⟨trivial, fun answer after served => ?_⟩
    obtain ⟨fd, rfl, rfl⟩ := openFile_servesSoundly located present loadable served
    refine ⟨trivial, fun status after' served => ?_⟩
    obtain ⟨rfl, st, rfl, described⟩ := fstat_servesSoundly (Finmap.lookup_insert _) served
    have valid : validateFileMetadata st label false effectiveUID = .ok () :=
      loadable.validate described label fun impossible => by simp at impossible
    simp only [Program.bind, valid, Except.mapError]
    exact ⟨trivial, fd, rfl, rfl⟩
  refine Survives.bind opening ?_ fun error after failed => by simp at failed
  rintro fd after _ ⟨_, equal, rfl⟩
  obtain rfl := Except.ok.inj equal
  have reading : (readHandle platform fd label).Survives
      (Disk.ServesSoundly machine effectiveUID) (fun _ => True)
      (disk.setHandle fd (.reading inode))
      fun result _ => ∃ st, result = .ok (data, st) ∧ st.Describes inode (disk.nodes inode) := by
    unfold readHandle
    rw [survives_perform_bind]
    refine ⟨trivial, fun status after served => ?_⟩
    obtain ⟨rfl, st, rfl, described⟩ := fstat_servesSoundly (Finmap.lookup_insert _) served
    refine ⟨trivial, fun answer after' served => ?_⟩
    obtain ⟨rfl, rfl⟩ := readToEnd_servesSoundly (Finmap.lookup_insert _) served
    exact ⟨trivial, st, by rw [← loadable.contents]; rfl, described⟩
  refine Survives.ensuring reading fun result after _ holds => ?_
  exact ⟨trivial, fun answer final _ => ⟨trivial, holds⟩⟩

/-- What has been written to a loadable file is what is loaded from it. -/
theorem survives_loadAgentConfig
    {config : AgentConfig}
    (located : machine.locate path = some (directory, name))
    (present : disk.entries directory name = some inode)
    (loadable : Loadable machine effectiveUID data config.agentKeyHex.isSome (disk.nodes inode))
    (decoded : platform.configFromJson data = some config) :
    (loadAgentConfig platform path effectiveUID).Survives
      (Disk.ServesSoundly machine effectiveUID) (fun _ => True) disk
      fun result _ => result = .ok config := by
  unfold loadAgentConfig
  refine Survives.bind (survives_readSafeFile _ located present loadable) ?_
    fun error after failed => by simp at failed
  rintro ⟨bytes, st⟩ after _ ⟨_, equal, described⟩
  obtain ⟨rfl, rfl⟩ := Prod.mk.inj (Except.ok.inj equal)
  dsimp only
  rw [decoded]
  dsimp only
  by_cases secret : config.agentKeyHex.isSome = true
  · rw [if_pos secret, loadable.validate described _ fun _ => secret]
    exact ⟨trivial, rfl⟩
  · rw [if_neg secret]
    exact ⟨trivial, rfl⟩

/-- Loading always comes to an end. -/
theorem settles_loadAgentConfig (path : String) (effectiveUID : UInt32) :
    (loadAgentConfig platform path effectiveUID).Settles (fun _ => True) fun _ => True := by
  have opens : (openSafeFile platform path "agent config" false effectiveUID).Settles
      (fun _ => True) fun _ => True := by
    refine .bind (settles_perform trivial) fun opened => ?_
    cases opened with
    | error code => trivial
    | ok fd =>
        refine .bind (settles_perform trivial) fun status => ?_
        dsimp only
        split
        · trivial
        · exact .bind (settles_perform trivial) fun _ => trivial
  have reads : ∀ fd, (readHandle platform fd "agent config").Settles
      (fun _ => True) fun _ => True := by
    intro fd
    refine .bind (settles_perform trivial) fun status => ?_
    cases status with
    | error code => trivial
    | ok st =>
        refine .bind (settles_perform trivial) fun data => ?_
        cases data <;> trivial
  refine .bind (.bind opens fun fd => ?_) fun read => ?_
  · exact .bind (reads fd).attempt fun result =>
      .bind (.bind (settles_perform trivial) fun _ => trivial) fun _ =>
        settles_done fun _ _ => trivial
  · obtain ⟨data, metadata⟩ := read
    dsimp only
    cases platform.configFromJson data with
    | none => trivial
    | some config =>
        dsimp only
        split
        · exact .bind (settles_done fun _ _ => trivial) fun _ => trivial
        · trivial

end Loading

/-! ## Writing and loading -/

/-- `loadAgentConfig` returns the config, unless a call fails without a reason. -/
def Loads
    {Key : Type}
    (platform : Platform Key)
    (machine : Machine)
    (effectiveUID : UInt32)
    (path : String)
    (config : AgentConfig)
    (disk : Disk) : Prop :=
  (∃ trace after, Executes (Disk.ServesSoundly machine effectiveUID)
      (loadAgentConfig platform path effectiveUID) disk trace (.done (.ok config)) after) ∧
    ∀ trace result after, Executes (Disk.ServesSoundly machine effectiveUID)
      (loadAgentConfig platform path effectiveUID) disk trace (.done result) after ->
        result = .ok config

/-- A config is replaced in a directory that can be opened. -/
theorem directory_of_replaced
    {Key : Type}
    {platform : Platform Key}
    {machine : Machine}
    {effectiveUID : UInt32}
    {rounds : Nat}
    {path : String}
    {data : Bytes}
    {privateMaterial : Bool}
    {process : Process}
    {start disk : Disk}
    {trace : List FileEvent}
    (executes : Executes (Disk.Serves machine effectiveUID)
      (replaceConfigFile platform rounds path data privateMaterial process) start trace
      (.done (.ok ())) disk) :
    ∃ directory, machine.directoryAt (platform.parentPath path) = some directory := by
  unfold replaceConfigFile at executes
  generalize returned : (Program.done (.ok ()) : Routine Unit) = rest at executes
  cases executes with
  | refl => cases returned
  | @call _ _ answer _ _ _ _ _ served executes =>
      cases answer with
      | ok parent =>
          obtain ⟨directory, located, _⟩ := served
          exact ⟨directory, located⟩
      | error code =>
          subst returned
          cases executes

/-- The config of a path is replaced as a whole or not at all, wherever the replacement
fails or stops; a replacement that has returned leaves nothing behind, if its clean-up
works; and a config that has been written to a path without a trailing slash can be
loaded from it. -/
theorem replaceConfigFile_allOrNothing
    {Key : Type}
    (platform : Platform Key)
    (machine : Machine)
    (agrees : machine.AgreesWith platform)
    (inverse : ∀ config bytes, platform.configToJson config = some bytes ->
      platform.configFromJson bytes = some config)
    (rounds : Nat)
    (path : String)
    (process : Process)
    (start : Disk) :
    (∀ data privateMaterial trace rest disk,
      Executes (Disk.Serves machine process.effectiveUID)
        (replaceConfigFile platform rounds path data privateMaterial process) start trace rest
        disk ->
        (∀ directory,
          (∀ place, machine.directoryAt (platform.parentPath path) = some place ->
            place = directory) ->
          AllOrNothing directory (platform.lastPathComponent path)
            (replacementName (platform.lastPathComponent path) process.uuid) data privateMaterial
            start disk) ∧
        ∀ result, rest = .done result -> CleanUpWorks (· ∈ trace) -> NothingLeft start disk) ∧
    ∀ config trace disk,
      Executes (Disk.Serves machine process.effectiveUID)
        (writeAgentConfig platform rounds config path process) start trace (.done (.ok ())) disk ->
      path.toList.getLast? ≠ some '/' ->
        Loads platform machine process.effectiveUID path config disk := by
  have replaced : ∀ data privateMaterial trace rest disk directory,
      Executes (Disk.Serves machine process.effectiveUID)
        (replaceConfigFile platform rounds path data privateMaterial process) start trace rest
        disk ->
      (∀ place, machine.directoryAt (platform.parentPath path) = some place ->
        place = directory) ->
      AllOrNothing directory (platform.lastPathComponent path)
          (replacementName (platform.lastPathComponent path) process.uuid) data privateMaterial
          start disk ∧
        ∀ result, rest = .done result ->
          Finished machine process.effectiveUID (· ∈ trace) directory
            (platform.lastPathComponent path) data privateMaterial start result disk := by
    intro data privateMaterial trace rest disk directory executes located
    exact (survives_replaceConfigFile rounds path data privateMaterial start located).executes
      executes.within
  refine ⟨fun data privateMaterial trace rest disk executes => ⟨?_, ?_⟩, ?_⟩
  · intro directory located
    exact (replaced _ _ _ _ _ directory executes located).1
  · intro result ended works
    obtain ⟨directory, located⟩ : ∃ directory, ∀ place,
        machine.directoryAt (platform.parentPath path) = some place -> place = directory := by
      cases machine.directoryAt (platform.parentPath path) with
      | none => exact ⟨0, fun place impossible => nomatch impossible⟩
      | some directory => exact ⟨directory, fun place equal => (Option.some.inj equal).symm⟩
    exact ((replaced _ _ _ _ _ directory executes located).2 result ended).tidy works
  · intro config trace disk executes noSlash
    unfold writeAgentConfig at executes
    cases encoded : platform.configToJson config with
    | none =>
        rw [encoded] at executes
        cases executes
    | some data =>
        rw [encoded] at executes
        obtain ⟨directory, located⟩ := directory_of_replaced executes
        obtain ⟨new, present, loadable⟩ := ((replaced _ _ _ _ _ directory executes
          fun place found => Option.some.inj (found.symm.trans located)).2 _ rfl).loadable rfl
        have loads := survives_loadAgentConfig (agrees path directory noSlash located) present
          loadable (inverse config data encoded)
        obtain ⟨loading, result, after, loaded⟩ := exists_executes
          (Disk.exists_servesSoundly machine process.effectiveUID)
          (settles_loadAgentConfig path process.effectiveUID) disk
        have returned := (loads.executes loaded).2 result rfl
        exact ⟨⟨loading, after, returned ▸ loaded⟩, fun _ _ _ executes =>
          (loads.executes executes).2 _ rfl⟩

/-! ## A sample disk -/

namespace SampleDisk

/-- A config with an inline private key, and its text. -/
def config : AgentConfig where
  socketPath := "agent.sock"
  hosts := none
  hostPublicKeyHex := none
  hostPublicKeyFile := none
  agentKeyHex := some "0909090909090909090909090909090909090909090909090909090909090909"
  agentKeyFile := none
  agentKeychainService := none
  agentKeychainAccount := none
  agentKeyId := none
  allowedFutureSkewMs := none
  requireConfirmation := none
  rateLimitWindowSeconds := none
  rateLimitMaxRequests := none

def text : Bytes :=
  Protocol.utf8 ("\x7b\n  \"agent_key_hex\" : " ++
    "\"0909090909090909090909090909090909090909090909090909090909090909\",\n" ++
    "  \"socket_path\" : \"agent.sock\"\n\x7d")

/-- Coders that know one config. -/
def platform : Platform String where
  keys := SampleHosts.platform
  configFromJson bytes := if bytes = text then some config else none
  configToJson value := if value = config then some text else none
  strerror code := toString code
  lastPathComponent _ := "agent.json"
  parentPath _ := "/tmp/macos-auth"

def machine : Machine where
  directoryAt path := if path = "/tmp/macos-auth" then some 1 else none
  locate _ := some (1, "agent.json")
  memberOf gid := gid = 20

def process : Process where
  command := .remove "web"
  effectiveUID := 501
  uuid := "4F1A"

/-- A config that everybody may read. -/
def start : Disk where
  entries directory name := if directory = 1 ∧ name = "agent.json" then some 7 else none
  nodes _ := { mode := 0x81a4, uid := 501, gid := 20, contents := [] }
  handles := ∅

/-- What is open when the replacement is created. -/
theorem handle_cases
    {fd : Nat}
    {handle : Handle}
    (opened : ((start.setHandle 3 (.directory 1)).setHandle 4 (.reading 7)).handles.lookup fd =
      some handle) :
    handle = .directory 1 ∨ handle = .reading 7 := by
  rcases eq_or_ne fd 4 with rfl | other
  · exact .inr (Option.some.inj (opened.symm.trans (Finmap.lookup_insert _)))
  · rcases eq_or_ne fd 3 with rfl | another
    · exact .inl (Option.some.inj (opened.symm.trans rfl))
    · have absent : ((start.setHandle 3 (.directory 1)).setHandle 4 (.reading 7)).handles.lookup
          fd = none := by
        simp only [Disk.setHandle]
        rw [Finmap.lookup_insert_of_ne _ other, Finmap.lookup_insert_of_ne _ another]
        rfl
      cases opened.symm.trans absent

/-- The coders invert each other. -/
theorem decode_encode
    (value : AgentConfig)
    (bytes : Bytes)
    (encoded : platform.configToJson value = some bytes) :
    platform.configFromJson bytes = some value := by
  by_cases same : value = config
  · subst same
    obtain rfl : text = bytes := by simpa [platform] using encoded
    simp [platform]
  · simp [platform, same] at encoded

theorem machine_agrees : machine.AgreesWith platform := by
  intro path directory _ located
  obtain rfl : 1 = directory := by simpa [machine, platform] using located
  rfl

end SampleDisk

set_option maxRecDepth 8000 in
/-- The private key in the config is hidden from everybody else when it is written. -/
theorem replaceConfigFile_allOrNothing_inline :
    ∃ trace disk,
      Executes (Disk.Serves SampleDisk.machine 501)
        (writeAgentConfig SampleDisk.platform 2 SampleDisk.config "/tmp/macos-auth/agent.json"
          SampleDisk.process) SampleDisk.start trace (.done (.ok ())) disk ∧
      Loads SampleDisk.platform SampleDisk.machine 501 "/tmp/macos-auth/agent.json"
        SampleDisk.config disk := by
  have run : ∃ trace disk, Executes (Disk.Serves SampleDisk.machine 501)
      (writeAgentConfig SampleDisk.platform 2 SampleDisk.config "/tmp/macos-auth/agent.json"
        SampleDisk.process) SampleDisk.start trace (.done (.ok ())) disk := by
    unfold writeAgentConfig
    have encoded : SampleDisk.platform.configToJson SampleDisk.config = some SampleDisk.text := by
      simp [SampleDisk.platform]
    rw [encoded]
    unfold replaceConfigFile
    refine exists_executes_call (.ok 3) ⟨1, by simp [SampleDisk.platform, SampleDisk.machine], rfl,
      rfl⟩ ?_
    refine exists_executes_call (.ok ⟨0, 1, 0x41ed, 501, 20⟩) ⟨rfl, by decide, ?_⟩ ?_
    · rintro inode (opened | opened) <;> simp [Disk.setHandle] at opened
    refine exists_executes_call (.ok 4) ⟨1, rfl, 7, rfl, by decide,
      .inr (.inl ⟨rfl, by decide⟩), rfl, rfl⟩ ?_
    refine exists_executes_call (.ok ⟨0, 7, 0x81a4, 501, 20⟩) ⟨rfl, by decide, ?_⟩ ?_
    · rintro inode (opened | opened)
      · obtain rfl : 7 = inode := by simpa [Disk.setHandle] using opened
        exact ⟨rfl, rfl, rfl, rfl⟩
      · simp [Disk.setHandle] at opened
    refine exists_executes_call (.ok 5) ⟨1, 8, 20, 0x1ff, rfl, rfl, ?_, rfl, rfl⟩ ?_
    · rintro (⟨place, label, found⟩ | ⟨fd, opened | opened⟩)
      · replace found : (if place = 1 ∧ label = "agent.json" then some 7 else none) = some 8 := found
        split at found <;> cases found
      · rcases SampleDisk.handle_cases opened with equal | equal <;> cases equal
      · rcases SampleDisk.handle_cases opened with equal | equal <;> cases equal
    refine exists_executes_call (.wrote ⟨SampleDisk.text.length, by decide, Nat.le_refl _⟩) ⟨8, rfl, rfl⟩ ?_
    refine exists_executes_call (.ok ()) ⟨8, rfl, .inr rfl, rfl⟩ ?_
    refine exists_executes_call (.ok ()) ⟨8, rfl, rfl⟩ ?_
    refine exists_executes_call (.ok ()) rfl ?_
    refine exists_executes_call (.ok ()) rfl ?_
    refine exists_executes_call (.ok ⟨0, 7, 0x81a4, 501, 20⟩) ⟨rfl, 1, 7, rfl, rfl, ?_⟩ ?_
    · exact ⟨rfl, rfl, rfl, rfl⟩
    refine exists_executes_call (.ok ()) ⟨1, 8, rfl, rfl, rfl⟩ ?_
    refine exists_executes_call (.ok ()) rfl ?_
    refine exists_executes_call (.error noEntry) ⟨rfl, ?_⟩ ?_
    · intro _ directory opened
      have parent : some (Handle.directory 1) = some (.directory directory) := opened
      cases parent
      rfl
    refine exists_executes_call (.ok ()) rfl ?_
    refine exists_executes_call (.ok ()) rfl ?_
    exact ⟨_, _, .refl _ _⟩
  obtain ⟨trace, disk, executes⟩ := run
  exact ⟨trace, disk, executes,
    (replaceConfigFile_allOrNothing SampleDisk.platform SampleDisk.machine
      SampleDisk.machine_agrees SampleDisk.decode_encode 2 "/tmp/macos-auth/agent.json"
      SampleDisk.process SampleDisk.start).2 SampleDisk.config trace disk executes (by decide)⟩

end ConfigFile
end Agent
end MacosAuth
