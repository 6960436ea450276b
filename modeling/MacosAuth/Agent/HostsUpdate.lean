import MacosAuth.Agent.ConfigDirectory

/-!
# Concurrent edits of the host list

Any number of `hosts add` and `hosts remove` commands run on one config file, and their
steps are interleaved in any order. A command compares the identity of the file just
before it renames its replacement with the identity that it took after opening the file
a second time. So it notices a rename between the second opening and the comparison,
but none between the first opening, from which it read the list, and the second, and
none between the comparison and its own rename.

The main result is that nothing else can go wrong: as long as no rename falls into one of
these two gaps, the commands that succeed take effect one after the other.
-/

namespace MacosAuth
namespace Agent
namespace ConfigFile

open Codec
open Effect Effect.Program
open Protocol (utf8)

/-! ## Runs -/

/-- A call of one of the commands. -/
abbrev HostsEntry (ι : Type) := Entry (fun _ : ι => Call) (fun _ => Call.Answer)

/-- The commands, each with its own number of rounds for its writes. -/
def commands
    {ι Key : Type}
    (platform : Platform Key)
    (path : String)
    (processes : ι -> Process)
    (rounds : ι -> Nat) :
    Pool (fun _ : ι => Call) (fun _ => Call.Answer) (fun _ => Failure) (fun _ => Unit) :=
  fun thread => runHosts platform (rounds thread) path (processes thread)

section Runs

variable {ι : Type} [DecidableEq ι]
variable {Key : Type} {platform : Platform Key} {path : String} {processes : ι -> Process}
variable {rounds : ι -> Nat} {start volume : Volume ι} {history : List (HostsEntry ι)}
variable {pool : Pool (fun _ : ι => Call) (fun _ => Call.Answer) (fun _ => Failure)
  (fun _ => Unit)}

/-- No command has a file open, and the config exists. -/
structure Initial (platform : Platform Key) (path : String) (start : Volume ι) : Prop where
  idle : ∀ thread fd, start.descriptors thread fd = none
  present : start.entries (platform.lastPathComponent path) ≠ none

/-- A descriptor that is open for the command is in use. -/
theorem descriptor_of_hasOpen
    (run : (configSystem platform ι).Run (commands platform path processes rounds) start history
      pool volume)
    {thread : ι}
    {fd : Nat}
    (opened : HasOpen fd (traceOf thread history)) :
    volume.descriptors thread fd ≠ none := by
  obtain ⟨before, parent, name, after, split, stillOpen⟩ := opened
  refine run.since (fun volume => volume.descriptors thread fd ≠ none)
    (fun request => request ≠ .close fd) ?_ ?_ ?_ ?_ split stillOpen
  · rintro first second ⟨inode, _, _, rfl⟩
    simp
  · intro first second request answer served stays inUse
    obtain ⟨descriptor, opened⟩ := Option.ne_none_iff_exists'.mp inUse
    simp [descriptor_of_serves served stays opened]
  · intro other different first second request answer served inUse
    rwa [descriptors_of_serves served different.symm]
  · rintro _ _ ⟨⟩

/-- The directory keeps its side of the contract. -/
theorem hostsContract_relied
    (run : (configSystem platform ι).Run (commands platform path processes rounds) start history
      pool volume)
    {thread : ι}
    {before after : List FileEvent}
    {event : FileEvent}
    (split : traceOf thread history = before ++ event :: after) :
    (hostsContract platform path (processes thread)).relies before event := by
  refine run.relied ?_ split
  intro past earlier world request answer world' run' served
  unfold hostsContract
  dsimp only
  split
  · rename_i made
    cases made
    obtain ⟨_, _, _, unused, _⟩ := served
    exact fun opened => descriptor_of_hasOpen run' opened unused
  · trivial

/-- A command has kept to its contract. -/
theorem commands_meets
    (run : (configSystem platform ι).Run (commands platform path processes rounds) start history
      pool volume)
    (thread : ι) :
    (pool thread).Meets (hostsContract platform path (processes thread)) (traceOf thread history)
      Outcome :=
  run.meets thread (meets_runHosts (rounds thread)) fun _ _ _ split => hostsContract_relied run split

/-- The invariant holds at every time. -/
theorem volumeInvariant_of_run
    (uuids : Function.Injective fun thread => (processes thread).uuid)
    (initial : Initial platform path start)
    (run : (configSystem platform ι).Run (commands platform path processes rounds) start history
      pool volume) :
    VolumeInvariant (platform.lastPathComponent path) (replacementOf platform path processes)
      (fun thread => traceOf thread history) volume := by
  induction run with
  | start =>
      obtain ⟨inode, present⟩ := Option.ne_none_iff_exists'.mp initial.present
      refine ⟨⟨inode, present, fun thread fd => ?_⟩, fun thread => trivial⟩
      simp [initial.idle thread fd]
  | @step history pool before after thread request next answer run current served
      inductionHypothesis =>
      have meets := commands_meets run thread
      rw [current] at meets
      rw [traceOf_snoc]
      exact inductionHypothesis.step uuids meets.1 served
  | drift _ drifted _ => exact drifted.elim

/-- The command holds the file open, nobody can write to it, and these are its contents. -/
structure Holds (volume : Volume ι) (thread : ι) (fd inode : Nat) (contents : Bytes) :
    Prop where
  opened : volume.descriptors thread fd = some (.reading inode)
  closed : volume.Sealed inode
  filled : volume.contents inode = contents

/-- A file that a command holds open stays the same until the command closes it. -/
theorem Holds.of_run
    {thread : ι}
    {fd inode : Nat}
    {contents : Bytes}
    {programs : Pool (fun _ : ι => Call) (fun _ => Call.Answer) (fun _ => Failure)
      (fun _ => Unit)}
    (holds : Holds start thread fd inode contents)
    (run : (configSystem platform ι).Run programs start history pool volume)
    (stays : ∀ event ∈ traceOf thread history, event.call ≠ .close fd) :
    Holds volume thread fd inode contents := by
  induction run with
  | start => exact holds
  | @step history pool before after actor request next answer _ _ served inductionHypothesis =>
      rw [traceOf_append] at stays
      obtain ⟨opened, closed, filled⟩ :=
        inductionHypothesis fun event member => stays event (List.mem_append_left _ member)
      obtain ⟨stillClosed, unchanged⟩ :=
        sealed_of_serves served (.inr ⟨thread, fd, .inl opened⟩) closed
      refine ⟨?_, stillClosed, unchanged.trans filled⟩
      by_cases same : actor = thread
      · subst same
        rw [traceOf_own] at stays
        exact descriptor_of_serves served (stays ⟨request, answer⟩ (by simp)) opened
      · rw [descriptors_of_serves served (Ne.symm same), opened]
  | drift _ drifted _ => exact drifted.elim

/-- Nobody replaces the config. -/
def Quiet (window : List (HostsEntry ι)) : Prop :=
  ∀ entry ∈ window, isRename entry.event = false

/-- The config is the same file with the same contents. -/
def SameConfig (name : String) (before after : Volume ι) : Prop :=
  after.entries name = before.entries name ∧
    ∀ inode, before.entries name = some inode -> after.contents inode = before.contents inode

/-- The config changes only when it is replaced. -/
theorem sameConfig_of_quiet
    (uuids : Function.Injective fun thread => (processes thread).uuid)
    (initial : Initial platform path start)
    {middle : Pool (fun _ : ι => Call) (fun _ => Call.Answer) (fun _ => Failure)
      (fun _ => Unit)}
    {between : Volume ι}
    {window : List (HostsEntry ι)}
    (earlier : (configSystem platform ι).Run (commands platform path processes rounds) start
      history middle between)
    (run : (configSystem platform ι).Run middle between window pool volume)
    (quiet : Quiet window) :
    SameConfig (platform.lastPathComponent path) between volume := by
  induction run with
  | start => exact ⟨rfl, fun _ _ => rfl⟩
  | @step window pool before after actor request next answer run current served
      inductionHypothesis =>
      obtain ⟨entry, contents⟩ :=
        inductionHypothesis fun event member => quiet event (by simp [member])
      have reached := earlier.trans run
      obtain ⟨inode, present, closed⟩ := (volumeInvariant_of_run uuids initial reached).published
      have meets := commands_meets reached actor
      rw [current] at meets
      have undisturbed := (contained_of_serves uuids meets.1 served).published
        (quiet ⟨actor, request, answer⟩ (by simp))
      refine ⟨undisturbed.entry.trans entry, fun found known => ?_⟩
      rw [← contents found known]
      refine undisturbed.contents found (entry.trans known) fun fd => ?_
      obtain rfl := Option.some.inj ((entry.trans known).symm.trans present)
      exact closed actor fd
  | drift _ drifted _ => exact drifted.elim

/-- No rename falls between the opening from which a command read the config and its
second opening, nor between its comparison and its own rename, for any command that
replaces the config. -/
def Covered (platform : Platform Key) (path : String) (history : List (HostsEntry ι)) : Prop :=
  ∀ (thread : ι) (before : List (HostsEntry ι)) (first : Nat) (loading : List (HostsEntry ι))
      (parent second : Nat) (guarded : List (HostsEntry ι)) (current : Stat)
      (waiting : List (HostsEntry ι)) (rename : FileEvent) (after : List (HostsEntry ι)),
    history = before ++ ⟨thread, .openFile path, .ok first⟩ :: (loading ++
      ⟨thread, .openat parent (platform.lastPathComponent path), .ok second⟩ :: (guarded ++
      ⟨thread, .fstatat parent (platform.lastPathComponent path), .ok current⟩ :: (waiting ++
      ⟨thread, rename⟩ :: after))) ->
    isRename rename = true -> Quiet loading ∧ Quiet waiting

/-- What a command has read is in the config as long as nobody replaces the config. -/
theorem config_of_reading
    (uuids : Function.Injective fun thread => (processes thread).uuid)
    (initial : Initial platform path start)
    {thread : ι}
    {first : Nat}
    {past loading : List (HostsEntry ι)}
    (run : (configSystem platform ι).Run (commands platform path processes rounds) start
      (past ++ ⟨thread, .openFile path, .ok first⟩ :: loading) pool volume)
    (quiet : Quiet loading)
    {early late : List FileEvent}
    {contents : Bytes}
    (read : traceOf thread loading = early ++ ⟨.readToEnd first, some contents⟩ :: late)
    (stillOpen : ∀ event ∈ early, event.call ≠ .close first) :
    ∃ inode, volume.entries (platform.lastPathComponent path) = some inode ∧
      volume.contents inode = contents := by
  obtain ⟨untilRead, afterRead, rfl, rfl, _⟩ := System.exists_split_of_traceOf read
  obtain ⟨_, _, before, _, earlier, ⟨inode, present, _, rfl⟩, opened, loadingRun⟩ :=
    run.split_cons
  obtain ⟨found, foundAt, closed⟩ := (volumeInvariant_of_run uuids initial earlier).published
  obtain rfl := Option.some.inj (present.symm.trans foundAt)
  have holds : Holds (before.setDescriptor thread first (some (.reading inode))) thread first inode
      (before.contents inode) :=
    ⟨by simp, fun other target reached =>
      closed other target (Volume.writes_of_setDescriptor (by simp) reached).1, rfl⟩
  obtain ⟨_, _, atRead, _, readingRun, ⟨reads, _⟩, _, _⟩ := loadingRun.split_cons
  have held := holds.of_run readingRun stillOpen
  obtain ⟨entry, unchanged⟩ := sameConfig_of_quiet uuids initial opened loadingRun quiet
  refine ⟨inode, entry.trans present, ?_⟩
  rw [unchanged inode present, reads inode held.opened, held.filled]
  rfl

/-- A config that is found to be the same file as at the second opening has the same
contents, as long as nobody replaces it after the comparison. -/
theorem config_of_guarding
    (uuids : Function.Injective fun thread => (processes thread).uuid)
    (initial : Initial platform path start)
    {thread : ι}
    {parent second : Nat}
    {current identity : Stat}
    {past guard waiting : List (HostsEntry ι)}
    (run : (configSystem platform ι).Run (commands platform path processes rounds) start
      (past ++ ⟨thread, .openat parent (platform.lastPathComponent path), .ok second⟩ :: (guard ++
        ⟨thread, .fstatat parent (platform.lastPathComponent path), .ok current⟩ :: waiting))
      pool volume)
    (identified : (⟨.fstat second, .ok identity⟩ : FileEvent) ∈ traceOf thread guard)
    (stillOpen : ∀ event ∈ traceOf thread guard, event.call ≠ .close second)
    (same : sameFile identity current = true)
    (quiet : Quiet waiting) :
    ∃ middle before inode,
      (configSystem platform ι).Run (commands platform path processes rounds) start past middle
        before ∧
      before.entries (platform.lastPathComponent path) = some inode ∧
      volume.entries (platform.lastPathComponent path) = some inode ∧
      volume.contents inode = before.contents inode := by
  obtain ⟨middle, _, before, _, earlier, ⟨inode, present, _, rfl⟩, opened, rest⟩ :=
    run.split_cons
  obtain ⟨found, foundAt, closed⟩ := (volumeInvariant_of_run uuids initial earlier).published
  obtain rfl := Option.some.inj (present.symm.trans foundAt)
  have holds : Holds (before.setDescriptor thread second (some (.reading inode))) thread second
      inode (before.contents inode) :=
    ⟨by simp, fun other target reached =>
      closed other target (Volume.writes_of_setDescriptor (by simp) reached).1, rfl⟩
  obtain ⟨_, _, atCheck, _, guardRun, ⟨checked, rfl⟩, checkedRun, waitingRun⟩ := rest.split_cons
  have heldAtCheck := holds.of_run guardRun stillOpen
  -- the identity that was taken is that of the file held open
  have identity_eq : identity.inode = inode := by
    obtain ⟨earlyTrace, lateTrace, split⟩ := List.append_of_mem identified
    obtain ⟨early, late, rfl, rfl, _⟩ := System.exists_split_of_traceOf split
    obtain ⟨_, _, atIdentity, _, untilIdentity, ⟨identifies, _⟩, _, _⟩ := guardRun.split_cons
    refine identifies inode (holds.of_run untilIdentity fun event member => ?_).opened
    exact stillOpen event (by rw [split]; exact List.mem_append_left _ member)
  have current_eq : current.inode = inode := by
    simp only [sameFile, Bool.and_eq_true, beq_iff_eq] at same
    rw [← same.1.2, identity_eq]
  rw [current_eq] at checked
  obtain ⟨entry, unchanged⟩ :=
    sameConfig_of_quiet uuids initial (opened.trans checkedRun) waitingRun quiet
  refine ⟨middle, before, inode, earlier, present, entry.trans checked, ?_⟩
  rw [unchanged inode checked, heldAtCheck.filled]

/-- The config holds what the command has read from it. -/
theorem config_of_prepared
    (uuids : Function.Injective fun thread => (processes thread).uuid)
    (initial : Initial platform path start)
    (run : (configSystem platform ι).Run (commands platform path processes rounds) start history
      pool volume)
    {thread : ι}
    {data : Bytes}
    (prepared : Prepared platform path (processes thread) (traceOf thread history) data)
    {rename : FileEvent}
    (renames : isRename rename = true)
    (covered : Covered platform path (history ++ [⟨thread, rename⟩])) :
    ∃ inode config edited,
      volume.entries (platform.lastPathComponent path) = some inode ∧
      platform.configFromJson (volume.contents inode) = some config ∧
      platform.keys.runHosts config (processes thread).command = .ok edited ∧
      platform.configToJson edited = some data := by
  obtain ⟨guarding, parent, second, identity, current, checked,
    ⟨loaded, guarded, rfl, ⟨first, early, late, contents, config, edited, rfl, stillReading,
      decoded, changed, encoded⟩, identified, stillOpen⟩, same⟩ := prepared
  -- where the calls of the command stand in the history
  obtain ⟨untilCheck, waiting, rfl, guardingTrace, _⟩ := System.exists_split_of_traceOf checked
  obtain ⟨untilReopen, guard, rfl, loadedTrace, rfl⟩ :=
    System.exists_split_of_traceOf guardingTrace
  rw [← List.nil_append (_ :: _)] at loadedTrace
  obtain ⟨untilOpen, loading, rfl, _, loadingTrace⟩ := System.exists_split_of_traceOf loadedTrace
  obtain ⟨quietLoading, quietWaiting⟩ := covered thread untilOpen first loading parent second
    guard current waiting rename [] (by simp) renames
  rw [List.append_assoc, List.cons_append] at run
  obtain ⟨_, before, inode, earlier, beforeAt, present, unchanged⟩ :=
    config_of_guarding uuids initial run identified stillOpen same quietWaiting
  obtain ⟨found, foundAt, filled⟩ :=
    config_of_reading uuids initial earlier quietLoading loadingTrace stillReading
  obtain rfl := Option.some.inj (beforeAt.symm.trans foundAt)
  exact ⟨inode, config, edited, present, by rw [unchanged, filled, decoded], changed, encoded⟩

/-- The commands that have replaced the config, in the order in which they did. -/
def renamers {ι : Type} (history : List (HostsEntry ι)) : List ι :=
  history.filterMap fun entry => if isRename entry.event then some entry.thread else none

omit [DecidableEq ι] in
theorem renamers_append (first second : List (HostsEntry ι)) :
    renamers (first ++ second) = renamers first ++ renamers second := by
  simp [renamers]

theorem mem_renamers
    {thread : ι} :
    thread ∈ renamers history ↔ ∃ event ∈ traceOf thread history, isRename event = true := by
  constructor
  · intro member
    obtain ⟨⟨owner, event⟩, present, found⟩ := List.mem_filterMap.mp member
    cases renames : isRename event with
    | true =>
        obtain rfl : owner = thread := by simpa [renames] using found
        exact ⟨event, mem_traceOf.mpr present, renames⟩
    | false => simp [renames] at found
  · rintro ⟨event, member, renames⟩
    exact List.mem_filterMap.mpr ⟨⟨thread, event⟩, mem_traceOf.mp member, by simp [renames]⟩

/-- A command has no replacement left once it has replaced the config. -/
theorem draft_of_rename
    {past : List FileEvent}
    (renamed : ∃ event ∈ past, isRename event = true) :
    draft past = .gone := by
  induction past using List.reverseRecOn with
  | nil => simp at renamed
  | append_singleton past event inductionHypothesis =>
      rw [draft_append]
      obtain ⟨found, member, renames⟩ := renamed
      rcases List.mem_append.mp member with old | new
      · rw [inductionHypothesis ⟨found, old, renames⟩]
        unfold Draft.after
        split <;> first | rfl | contradiction
      · obtain rfl := List.mem_singleton.mp new
        unfold isRename at renames
        split at renames
        · cases draft past <;> rfl
        · cases renames

omit [DecidableEq ι] in
/-- The condition held all along. -/
theorem Covered.earlier
    {entry : HostsEntry ι}
    (covered : Covered platform path (history ++ [entry])) :
    Covered platform path history := by
  intro thread before first loading parent second guarded current waiting rename after split
  refine covered thread before first loading parent second guarded current waiting rename
    (after ++ [entry]) ?_
  rw [split]
  simp

/-- The config is the result of the commands that have replaced it, one after the
other. -/
theorem runAll_renamers
    (lawful : ∀ config bytes, platform.configToJson config = some bytes ->
      platform.configFromJson bytes = some config)
    (uuids : Function.Injective fun thread => (processes thread).uuid)
    (initial : Initial platform path start)
    {config : AgentConfig}
    (loads : ∀ inode, start.entries (platform.lastPathComponent path) = some inode ->
      platform.configFromJson (start.contents inode) = some config)
    (run : (configSystem platform ι).Run (commands platform path processes rounds) start history
      pool volume)
    (covered : Covered platform path history) :
    (renamers history).Nodup ∧ ∃ inode final,
      volume.entries (platform.lastPathComponent path) = some inode ∧
      platform.configFromJson (volume.contents inode) = some final ∧
      platform.keys.runAll config
        ((renamers history).map fun thread => (processes thread).command) = .ok final := by
  induction run with
  | start =>
      obtain ⟨inode, present⟩ := Option.ne_none_iff_exists'.mp initial.present
      exact ⟨.nil, inode, config, present, loads inode present, rfl⟩
  | @step history pool before after thread request next answer run current served
      inductionHypothesis =>
      obtain ⟨distinct, inode, final, present, decoded, ran⟩ :=
        inductionHypothesis covered.earlier
      have meets := commands_meets run thread
      rw [current] at meets
      have invariant := volumeInvariant_of_run uuids initial run
      rw [renamers_append]
      cases renames : isRename ⟨request, answer⟩ with
      | false =>
          obtain ⟨found, foundAt, closed⟩ := invariant.published
          obtain rfl := Option.some.inj (present.symm.trans foundAt)
          have undisturbed := (contained_of_serves uuids meets.1 served).published renames
          have none : renamers [(⟨thread, request, answer⟩ : HostsEntry ι)] = [] := by
            simp [renamers, renames]
          rw [none, List.append_nil]
          refine ⟨distinct, inode, final, undisturbed.entry.trans present, ?_, ran⟩
          rw [undisturbed.contents inode present (closed thread), decoded]
      | true =>
          have only : renamers [(⟨thread, request, answer⟩ : HostsEntry ι)] = [thread] := by
            simp [renamers, renames]
          rw [only]
          unfold isRename at renames
          split at renames
          · rename_i made
            cases made
            obtain ⟨⟨rfl, rfl, data, complete, prepared⟩, _⟩ := meets
            obtain ⟨found, loaded, edited, foundAt, loadedFrom, changed, encoded⟩ :=
              config_of_prepared uuids initial run prepared rfl covered
            obtain rfl := Option.some.inj (present.symm.trans foundAt)
            obtain rfl := Option.some.inj (decoded.symm.trans loadedFrom)
            have holds := invariant.drafts thread
            rw [complete] at holds
            obtain ⟨renamed, renamedAt, filled, _⟩ := holds
            obtain ⟨source, sourceAt, rfl⟩ := served
            obtain rfl := Option.some.inj (renamedAt.symm.trans sourceAt)
            refine ⟨?_, renamed, edited, Function.update_self .., ?_, ?_⟩
            · refine List.nodup_append.mpr ⟨distinct, by simp, ?_⟩
              rintro earlier member _ (_ | ⟨_, ⟨⟩⟩) rfl
              rw [draft_of_rename (mem_renamers.mp member)] at complete
              cases complete
            · exact (congrArg platform.configFromJson filled).trans (lawful edited data encoded)
            · simp only [KeyPlatform.runAll, List.map_append, List.foldlM_append,
                Protocol.bind_eq_ok] at ran ⊢
              exact ⟨final, ran, by simpa using changed⟩
          · cases renames
  | drift _ drifted _ => exact drifted.elim

/-- Every command that has started has ended. -/
def Ended (history : List (HostsEntry ι))
    (pool : Pool (fun _ : ι => Call) (fun _ => Call.Answer) (fun _ => Failure)
      (fun _ => Unit)) : Prop :=
  ∀ thread, traceOf thread history = [] ∨ ∃ result, pool thread = .done result

/-- No command failed to write the directory to disk after it had replaced the config. -/
def Synced (history : List (HostsEntry ι)) : Prop :=
  ∀ thread, ¬Unsynced (traceOf thread history)

/-- The config is the result of the commands that report success, one after the other in
some order. -/
def Serialized (platform : Platform Key) (path : String) (processes : ι -> Process)
    (config : AgentConfig)
    (pool : Pool (fun _ : ι => Call) (fun _ => Call.Answer) (fun _ => Failure)
      (fun _ => Unit))
    (volume : Volume ι) : Prop :=
  ∃ order : List ι, order.Nodup ∧
    (∀ thread, thread ∈ order ↔ pool thread = .done (.ok ())) ∧
    ∃ inode final,
      volume.entries (platform.lastPathComponent path) = some inode ∧
      platform.configFromJson (volume.contents inode) = some final ∧
      platform.keys.runAll config (order.map fun thread => (processes thread).command) =
        .ok final

/-- Commands on one config file take effect one after the other, as long as no rename falls
into one of the two gaps of a command that replaces the config, and the directory can be
written to disk after each rename. -/
theorem runHosts_serialized
    (lawful : ∀ config bytes, platform.configToJson config = some bytes ->
      platform.configFromJson bytes = some config)
    (uuids : Function.Injective fun thread => (processes thread).uuid)
    (initial : Initial platform path start)
    {config : AgentConfig}
    (loads : ∀ inode, start.entries (platform.lastPathComponent path) = some inode ->
      platform.configFromJson (start.contents inode) = some config)
    (run : (configSystem platform ι).Run (commands platform path processes rounds) start history
      pool volume)
    (ended : Ended history pool)
    (covered : Covered platform path history)
    (synced : Synced history) :
    Serialized platform path processes config pool volume := by
  obtain ⟨distinct, result⟩ := runAll_renamers lawful uuids initial loads run covered
  refine ⟨renamers history, distinct, fun thread => ?_, result⟩
  have meets := commands_meets run thread
  constructor
  · intro member
    have renamed := mem_renamers.mp member
    rcases ended thread with unstarted | ⟨outcome, finished⟩
    · simp [unstarted] at renamed
    · rw [finished] at meets
      cases outcome with
      | ok _ => exact finished
      | error error => exact absurd (meets renamed) (synced thread)
  · intro finished
    rw [finished] at meets
    exact mem_renamers.mpr meets

end Runs

/-! ## Sample runs -/

/-- The members of a host with an inline key. -/
def hostJson (host : AllowedHost) : String :=
  "    \x7b\n      \"host_id\" : \"" ++ host.hostId ++ "\",\n      \"public_key_hex\" : \"" ++
    host.publicKeyHex.getD "" ++ "\"\n    \x7d"

/-- The text of a sample config with at least one host. -/
def configJson (hosts : List AllowedHost) : String :=
  "\x7b\n  \"agent_key_file\" : \"\\/tmp\\/agent.key\",\n  \"hosts\" : [\n" ++
    String.intercalate ",\n" (hosts.map hostJson) ++
    "\n  ],\n  \"socket_path\" : \"\\/tmp\\/agent.sock\"\n\x7d"

def web : AllowedHost := SampleHosts.inlineHost "web" "aa"
def db : AllowedHost := SampleHosts.inlineHost "db" "bb"
def nas : AllowedHost := SampleHosts.inlineHost "nas" "cc"

/-- Coders that know the configs of the sample runs. -/
def samplePlatform : Platform String where
  keys := SampleHosts.platform
  configFromJson bytes :=
    ([[web], [web, db], [web, nas]].find? fun hosts =>
      utf8 (configJson hosts) == bytes).map SampleHosts.config
  configToJson config :=
    ([[web], [web, db], [web, nas]].find? fun hosts =>
      SampleHosts.config hosts == config).map fun hosts => utf8 (configJson hosts)
  strerror code := toString code
  lastPathComponent _ := "agent.json"
  parentPath _ := "/tmp/macos-auth"

/-- What the sample coders write they can read. -/
theorem samplePlatform_lawful
    {config : AgentConfig}
    {bytes : Bytes}
    (written : samplePlatform.configToJson config = some bytes) :
    samplePlatform.configFromJson bytes = some config := by
  obtain ⟨hosts, found, rfl⟩ := Option.map_eq_some_iff.mp written
  have same : SampleHosts.config hosts = config := by simpa using List.find?_some found
  subst same
  have listed := List.mem_of_find?_eq_some found
  simp only [List.mem_cons, List.not_mem_nil, or_false] at listed
  rcases listed with rfl | rfl | rfl
  · rfl
  · rfl
  · rfl

/-- A directory that gives out inode numbers in order. -/
structure SampleDirectory where
  volume : Volume Bool
  next : Nat

namespace SampleDirectory

/-- The numbers from `next` on are not in use. -/
def Sound (directory : SampleDirectory) : Prop :=
  ∀ inode, directory.next ≤ inode -> ¬directory.volume.Live inode

def freshDescriptor (directory : SampleDirectory) (thread : Bool) : Option Nat :=
  [3, 4, 5].find? fun fd => directory.volume.descriptors thread fd == none

def fileStat (inode : Nat) : Stat :=
  ⟨1, inode, 0x81a4, 501, 20⟩

/-- Open a file or the directory under a new descriptor. -/
def openAs
    (directory : SampleDirectory)
    (thread : Bool)
    (descriptor : Descriptor) : Except Nat Nat × SampleDirectory :=
  match directory.freshDescriptor thread with
  | some fd =>
      (.ok fd, { directory with
        volume := directory.volume.setDescriptor thread fd (some descriptor) })
  | none => (.error 24, directory)

theorem within_whole {bytes : Bytes} (nonempty : 0 < bytes.length) :
    0 < bytes.length ∧ bytes.length ≤ bytes.length :=
  ⟨nonempty, Nat.le_refl _⟩

/-- How the sample directory answers. -/
def respond (thread : Bool) (directory : SampleDirectory) :
    (request : Call) -> request.Answer × SampleDirectory
  | .openFile _ =>
      match directory.volume.entries "agent.json" with
      | some inode => directory.openAs thread (.reading inode)
      | none => (.error 2, directory)
  | .openDirectory _ => directory.openAs thread .directory
  | .openat _ name =>
      match directory.volume.entries name with
      | some inode => directory.openAs thread (.reading inode)
      | none => (.error 2, directory)
  | .createat _ name =>
      match directory.volume.entries name, directory.freshDescriptor thread with
      | none, some fd =>
          (.ok fd, {
            volume := Volume.setDescriptor
              { directory.volume with
                entries := Function.update directory.volume.entries name (some directory.next)
                contents := Function.update directory.volume.contents directory.next [] }
              thread fd (some (.writing directory.next))
            next := directory.next + 1 })
      | _, _ => (.error 17, directory)
  | .fstat fd =>
      match directory.volume.descriptors thread fd with
      | some (.reading inode) => (.ok (fileStat inode), directory)
      | some .directory => (.ok ⟨1, 0, 0x41ed, 501, 20⟩, directory)
      | _ => (.error 9, directory)
  | .fstatat _ name =>
      match directory.volume.entries name with
      | some inode => (.ok (fileStat inode), directory)
      | none => (.error 2, directory)
  | .readToEnd fd =>
      match directory.volume.descriptors thread fd with
      | some (.reading inode) => (some (directory.volume.contents inode), directory)
      | _ => (none, directory)
  | .write fd bytes =>
      match directory.volume.descriptors thread fd with
      | some (.writing inode) =>
          if nonempty : 0 < bytes.length then
            (.wrote ⟨bytes.length, within_whole nonempty⟩, { directory with
              volume.contents := Function.update directory.volume.contents inode
                (directory.volume.contents inode ++ bytes.take bytes.length) })
          else
            (.failed 0, directory)
      | _ => (.failed 9, directory)
  | .fchown _ _ _ => (.ok (), directory)
  | .fchmod _ _ => (.ok (), directory)
  | .fsync _ => (.ok (), directory)
  | .close fd =>
      (.ok (), { directory with volume := directory.volume.setDescriptor thread fd none })
  | .renameat _ source target =>
      match directory.volume.entries source with
      | some inode =>
          (.ok (), { directory with
            volume.entries := Function.update
              (Function.update directory.volume.entries source none) target (some inode) })
      | none => (.error 2, directory)
  | .unlinkat _ name =>
      match directory.volume.entries name with
      | some _ =>
          (.ok (), { directory with
            volume.entries := Function.update directory.volume.entries name none })
      | none => (.error 2, directory)

theorem live_of_setDescriptor
    {volume : Volume Bool}
    {thread : Bool}
    {fd inode : Nat}
    {descriptor : Option Descriptor}
    (live : (volume.setDescriptor thread fd descriptor).Live inode) :
    volume.Live inode ∨ descriptor = some (.reading inode) ∨
      descriptor = some (.writing inode) := by
  rcases live with ⟨name, found⟩ | ⟨other, target, found⟩
  · exact .inl (.inl ⟨name, found⟩)
  · by_cases same : other = thread
    · subst same
      rw [Volume.setDescriptor_self, Function.update_apply] at found
      split at found
      · exact .inr found
      · exact .inl (.inr ⟨other, target, found⟩)
    · rw [Volume.setDescriptor_of_ne _ same] at found
      exact .inl (.inr ⟨other, target, found⟩)

theorem Sound.of_live
    {directory : SampleDirectory}
    (sound : directory.Sound)
    {volume : Volume Bool}
    (live : ∀ inode, volume.Live inode -> directory.volume.Live inode) :
    Sound ⟨volume, directory.next⟩ :=
  fun inode unused alive => sound inode unused (live inode alive)

/-- Opening takes an unused descriptor, or there is none. -/
theorem openAs_cases
    (directory : SampleDirectory)
    (thread : Bool)
    (descriptor : Descriptor) :
    directory.openAs thread descriptor = (.error 24, directory) ∨
      ∃ fd volume, directory.openAs thread descriptor = (.ok fd, ⟨volume, directory.next⟩) ∧
        directory.volume.Opens thread fd descriptor volume := by
  unfold openAs
  cases fresh : directory.freshDescriptor thread with
  | none => exact .inl rfl
  | some fd => exact .inr ⟨fd, _, rfl, by simpa using List.find?_some fresh, rfl⟩

/-- Opening a file that is in use takes no inode number. -/
theorem Sound.of_opens
    {directory : SampleDirectory}
    (sound : directory.Sound)
    {thread : Bool}
    {fd : Nat}
    {descriptor : Descriptor}
    {volume : Volume Bool}
    (opens : directory.volume.Opens thread fd descriptor volume)
    (known : ∀ inode, descriptor = .reading inode ∨ descriptor = .writing inode ->
      directory.volume.Live inode) :
    Sound ⟨volume, directory.next⟩ := by
  obtain ⟨_, rfl⟩ := opens
  refine sound.of_live fun inode live => ?_
  rcases live_of_setDescriptor live with old | reading | writing
  · exact old
  · exact known inode (.inl (Option.some.inj reading))
  · exact known inode (.inr (Option.some.inj writing))

/-- The sample directory answers as a directory does. -/
theorem respond_faithful
    (thread : Bool)
    (directory : SampleDirectory)
    (request : Call)
    (sound : directory.Sound) :
    directory.volume.Serves samplePlatform thread request (directory.respond thread request).1
        (directory.respond thread request).2.volume ∧
      (directory.respond thread request).2.Sound := by
  have named (name : String) (inode found : Nat)
      (present : directory.volume.entries name = some inode)
      (equal : Descriptor.reading inode = .reading found ∨
        Descriptor.reading inode = .writing found) :
      directory.volume.Live found := by
    rcases equal with ⟨⟨⟩⟩ | ⟨⟨⟩⟩
    exact .inl ⟨name, present⟩
  cases request with
  | openFile path =>
      simp only [respond]
      split
      · rename_i inode present
        rcases directory.openAs_cases thread (.reading inode) with
          failed | ⟨fd, volume, opened, opens⟩
        · rw [failed]
          exact ⟨rfl, sound⟩
        · rw [opened]
          exact ⟨⟨inode, present, opens⟩, sound.of_opens opens (named _ _ · present)⟩
      · exact ⟨rfl, sound⟩
  | openDirectory path =>
      simp only [respond]
      rcases directory.openAs_cases thread .directory with failed | ⟨fd, volume, opened, opens⟩
      · rw [failed]
        exact ⟨rfl, sound⟩
      · rw [opened]
        exact ⟨opens, sound.of_opens opens (by simp)⟩
  | openat parent name =>
      simp only [respond]
      split
      · rename_i inode present
        rcases directory.openAs_cases thread (.reading inode) with
          failed | ⟨fd, volume, opened, opens⟩
        · rw [failed]
          exact ⟨rfl, sound⟩
        · rw [opened]
          exact ⟨⟨inode, present, opens⟩, sound.of_opens opens (named _ _ · present)⟩
      · exact ⟨rfl, sound⟩
  | createat parent name =>
      simp only [respond]
      split
      · rename_i fd absent fresh
        refine ⟨⟨absent, directory.next, sound _ (Nat.le_refl _), ?_, rfl⟩, ?_⟩
        · simpa using List.find?_some fresh
        · intro inode unused live
          have later : directory.next + 1 ≤ inode := unused
          rcases live_of_setDescriptor live with (⟨found, present⟩ | opened) | same | same
          · simp only [Function.update_apply] at present
            split at present
            · have := Option.some.inj present
              omega
            · exact sound inode (by omega) (.inl ⟨found, present⟩)
          · exact sound inode (by omega) (.inr opened)
          · cases same
          · cases same
            omega
      · exact ⟨rfl, sound⟩
  | fstat fd =>
      simp only [respond]
      split
      · rename_i inode opened
        refine ⟨⟨fun found same => ?_, rfl⟩, sound⟩
        rw [opened] at same
        exact Descriptor.reading.inj (Option.some.inj same)
      · rename_i opened
        refine ⟨⟨fun found same => ?_, rfl⟩, sound⟩
        rw [opened] at same
        cases same
      · exact ⟨rfl, sound⟩
  | fstatat parent name =>
      simp only [respond]
      split
      · rename_i inode present
        exact ⟨⟨present, rfl⟩, sound⟩
      · exact ⟨rfl, sound⟩
  | readToEnd fd =>
      simp only [respond]
      split
      · rename_i inode opened
        refine ⟨⟨fun found same => ?_, rfl⟩, sound⟩
        rw [opened] at same
        rw [Descriptor.reading.inj (Option.some.inj same)]
      · exact ⟨rfl, sound⟩
  | write fd bytes =>
      simp only [respond]
      split
      · rename_i inode opened
        split
        · exact ⟨⟨inode, opened, rfl⟩, sound.of_live fun _ live => live⟩
        · exact ⟨rfl, sound⟩
      · exact ⟨rfl, sound⟩
  | fchown fd uid gid => exact ⟨rfl, sound⟩
  | fchmod fd mode => exact ⟨rfl, sound⟩
  | fsync fd => exact ⟨rfl, sound⟩
  | close fd =>
      refine ⟨rfl, sound.of_live fun inode live => ?_⟩
      rcases live_of_setDescriptor live with old | same | same
      · exact old
      · cases same
      · cases same
  | renameat parent source target =>
      simp only [respond]
      split
      · rename_i inode present
        refine ⟨⟨inode, present, rfl⟩, sound.of_live fun found live => ?_⟩
        rcases live with ⟨name, reached⟩ | opened
        · simp only [Function.update_apply] at reached
          split at reached
          · obtain rfl := Option.some.inj reached
            exact .inl ⟨source, present⟩
          · split at reached
            · cases reached
            · exact .inl ⟨name, reached⟩
        · exact .inr opened
      · exact ⟨rfl, sound⟩
  | unlinkat parent name =>
      simp only [respond]
      split
      · refine ⟨rfl, sound.of_live fun found live => ?_⟩
        rcases live with ⟨other, reached⟩ | opened
        · simp only [Function.update_apply] at reached
          split at reached
          · cases reached
          · exact .inl ⟨other, reached⟩
        · exact .inr opened
      · exact ⟨rfl, sound⟩

/-- A directory with a config that lists one host. -/
def start : SampleDirectory where
  volume := {
    entries := fun name => if name = "agent.json" then some 1 else none
    contents := fun inode => if inode = 1 then utf8 (configJson [web]) else []
    descriptors := fun _ _ => none }
  next := 2

theorem start_sound : start.Sound := by
  rintro inode unused (⟨name, found⟩ | ⟨thread, fd, found | found⟩)
  · have small : 1 = inode := by
      simp only [start] at found
      split at found
      · exact Option.some.inj found
      · cases found
    have large : 2 ≤ inode := unused
    omega
  · cases found
  · cases found

theorem start_initial : Initial samplePlatform "/tmp/macos-auth/agent.json" start.volume where
  idle _ _ := rfl
  present := by simp [start, samplePlatform]

end SampleDirectory

/-- Two commands that add different hosts. -/
def sampleProcesses : Bool -> Process
  | false => ⟨.add db, 501, "68753A44-4D6F-1226-9C60-0050E4C00067"⟩
  | true => ⟨.add nas, 501, "E621E1F8-C36C-495A-93FC-0C247A3E6E5F"⟩

theorem sampleProcesses_injective :
    Function.Injective fun thread => (sampleProcesses thread).uuid := by
  intro left right equal
  cases left <;> cases right <;> simp_all [sampleProcesses]

def sampleCommands : Pool (fun _ : Bool => Call) (fun _ => Call.Answer) (fun _ => Failure)
    (fun _ => Unit) :=
  commands samplePlatform "/tmp/macos-auth/agent.json" sampleProcesses fun _ => 2

/-- Part of a run: one command makes some calls. -/
def sampleTurn (thread : Bool) (calls : Nat) (command : Routine Unit)
    (directory : SampleDirectory) :=
  System.follow (SampleDirectory.respond thread) calls command directory

/-- The first command makes some calls, then the second runs to its end, and then the
first goes on. -/
def firstTurn (calls : Nat) :=
  sampleTurn false calls (sampleCommands false) SampleDirectory.start

def secondTurn (calls : Nat) :=
  sampleTurn true 21 (sampleCommands true) (firstTurn calls).2.2

def thirdTurn (calls : Nat) :=
  sampleTurn false 21 (firstTurn calls).2.1 (secondTurn calls).2.2

def sampleHistory (calls : Nat) : List (HostsEntry Bool) :=
  (firstTurn calls).1.map (Entry.mk false) ++ (secondTurn calls).1.map (Entry.mk true) ++
    (thirdTurn calls).1.map (Entry.mk false)

def samplePool (calls : Nat) : Pool (fun _ : Bool => Call) (fun _ => Call.Answer)
    (fun _ => Failure) (fun _ => Unit)
  | false => (thirdTurn calls).2.1
  | true => (secondTurn calls).2.1

theorem sample_run (calls : Nat) :
    (configSystem samplePlatform Bool).Run sampleCommands SampleDirectory.start.volume
      (sampleHistory calls) (samplePool calls) (thirdTurn calls).2.2.volume := by
  have turn {history : List (HostsEntry Bool)}
      {pool : Pool (fun _ : Bool => Call) (fun _ => Call.Answer) (fun _ => Failure)
        (fun _ => Unit)}
      {directory : SampleDirectory}
      (run : (configSystem samplePlatform Bool).Run sampleCommands SampleDirectory.start.volume
        history pool directory.volume)
      (sound : directory.Sound)
      (thread : Bool)
      (fuel : Nat) :=
    run.follow_through SampleDirectory.volume SampleDirectory.Sound
      (SampleDirectory.respond_faithful thread) sound fuel
  obtain ⟨first, firstSound⟩ := turn .start SampleDirectory.start_sound false calls
  obtain ⟨second, secondSound⟩ := turn first firstSound true 21
  obtain ⟨third, _⟩ := turn second secondSound false 21
  have pools : samplePool calls = Function.update (Function.update
      (Function.update sampleCommands false (firstTurn calls).2.1) true (secondTurn calls).2.1)
      false (thirdTurn calls).2.1 := by
    funext thread
    cases thread <;> rfl
  rw [pools]
  exact third

/-- A failed attempt to write a directory to disk. -/
def isFailedSync : FileEvent -> Bool
  | ⟨.fsync _, .error _⟩ => true
  | _ => false

theorem synced_of_all
    {history : List (HostsEntry Bool)}
    (fine : history.all (fun entry => !isFailedSync entry.event) = true) :
    Synced history := by
  rintro thread ⟨before, rename, parent, code, after, split, _⟩
  have member : (⟨.fsync parent, .error code⟩ : FileEvent) ∈ traceOf thread history := by
    rw [split]
    simp
  have absurdity := List.all_eq_true.mp fine _ (mem_traceOf.mp member)
  simp [isFailedSync] at absurdity

/-- With a single rename there is none that could fall into a gap. -/
theorem covered_of_single
    {history : List (HostsEntry Bool)}
    (single : history.countP (fun entry => isRename entry.event) ≤ 1) :
    Covered samplePlatform "/tmp/macos-auth/agent.json" history := by
  intro thread before first loading parent second guarded current waiting rename after split
    renames
  have counted := congrArg (List.countP fun entry => isRename entry.event) split
  simp only [List.countP_append, List.countP_cons, renames, if_true] at counted
  have none {window : List (HostsEntry Bool)}
      (zero : window.countP (fun entry => isRename entry.event) = 0) : Quiet window := by
    intro entry member
    simpa using List.countP_eq_zero.mp zero entry member
  exact ⟨none (by omega), none (by omega)⟩

set_option maxRecDepth 8000 in
/-- A command that has opened the config a second time before another one replaces it
notices and fails. -/
theorem runHosts_serialized_noticed :
    ∃ history pool volume,
      (configSystem samplePlatform Bool).Run sampleCommands SampleDirectory.start.volume history
        pool volume ∧
      pool false = .done (.error (.agent (.io "config changed during replacement"))) ∧
      pool true = .done (.ok ()) ∧
      Serialized samplePlatform "/tmp/macos-auth/agent.json" sampleProcesses
        (SampleHosts.config [web]) pool volume := by
  refine ⟨_, _, _, sample_run 9, rfl, rfl, ?_⟩
  refine runHosts_serialized (fun _ _ => samplePlatform_lawful) sampleProcesses_injective
    SampleDirectory.start_initial ?_ (sample_run 9) ?_ ?_ ?_
  · intro inode present
    obtain rfl : 1 = inode := Option.some.inj present
    rfl
  · intro thread
    cases thread
    · exact .inr ⟨_, rfl⟩
    · exact .inr ⟨_, rfl⟩
  · exact covered_of_single (by decide)
  · exact synced_of_all rfl

set_option maxRecDepth 8000 in
/-- A command that has read the config before another one replaces it, and opens it again
afterwards, overwrites the update of the other, and both report success. -/
theorem runHosts_not_serialized :
    ∃ history pool volume,
      (configSystem samplePlatform Bool).Run sampleCommands SampleDirectory.start.volume history
        pool volume ∧
      Initial samplePlatform "/tmp/macos-auth/agent.json" SampleDirectory.start.volume ∧
      Ended history pool ∧ Synced history ∧
      pool false = .done (.ok ()) ∧ pool true = .done (.ok ()) ∧
      ¬Serialized samplePlatform "/tmp/macos-auth/agent.json" sampleProcesses
        (SampleHosts.config [web]) pool volume := by
  refine ⟨_, _, _, sample_run 5, SampleDirectory.start_initial, ?_, synced_of_all rfl, rfl, rfl,
    ?_⟩
  · intro thread
    cases thread
    · exact .inr ⟨_, rfl⟩
    · exact .inr ⟨_, rfl⟩
  · rintro ⟨order, distinct, members, inode, final, present, decoded, ran⟩
    have both (thread : Bool) : thread ∈ order := by
      refine (members thread).mpr ?_
      cases thread <;> rfl
    have found : some (SampleHosts.config [web, db]) = some final := by
      rw [← decoded]
      obtain rfl : 3 = inode := Option.some.inj present
      rfl
    obtain rfl := Option.some.inj found
    have pair : order.Perm [false, true] :=
      (List.perm_ext_iff_of_nodup distinct (by decide)).mpr (by simp [both])
    obtain ⟨first, second, rfl⟩ := List.length_eq_two.mp pair.length_eq
    cases first <;> cases second
    · simp at distinct
    · exact absurd ran (by decide)
    · exact absurd ran (by decide)
    · simp at distinct

end ConfigFile
end Agent
end MacosAuth
