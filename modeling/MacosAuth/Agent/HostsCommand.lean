import MacosAuth.Agent.ConfigFile

/-!
# What one `hosts` command does

The contract of a command: it fills and removes its own replacement only, and it renames
the replacement when it has found that the config is still the file that it opened last.
The outcome of a command tells whether it has replaced the config.
-/

namespace MacosAuth
namespace Agent
namespace ConfigFile

open Codec
open Effect Effect.Program

/-! ## The contract -/

/-- The replacement of a command: its descriptor while it is written to, and the bytes
written so far. -/
inductive Draft
  | absent
  | writing (fd : Nat) (bytes : Bytes)
  | complete (bytes : Bytes)
  | gone

/-- What a call does to the replacement of its command. -/
def Draft.after : Draft -> FileEvent -> Draft
  | .absent, ⟨.createat _ _, .ok fd⟩ => .writing fd []
  | .writing fd bytes, ⟨.write target chunk, .wrote count⟩ =>
      if target = fd then .writing fd (bytes ++ chunk.take count.val) else .gone
  | .writing fd bytes, ⟨.close target, .ok _⟩ =>
      if target = fd then .complete bytes else .writing fd bytes
  | .writing fd bytes, ⟨.close target, .error _⟩ =>
      if target = fd then .gone else .writing fd bytes
  | _, ⟨.renameat _ _ _, .ok _⟩ => .gone
  | _, ⟨.unlinkat _ _, _⟩ => .gone
  | draft, _ => draft

/-- The replacement of a command after its calls so far. -/
def draft (past : List FileEvent) : Draft :=
  past.foldl Draft.after .absent

/-- The descriptor was opened and has not been closed since. -/
def HasOpen (fd : Nat) (past : List FileEvent) : Prop :=
  ∃ before parent name after,
    past = before ++ ⟨.openat parent name, .ok fd⟩ :: after ∧
      ∀ event ∈ after, event.call ≠ .close fd

/-- The call replaced the config. -/
def isRename : FileEvent -> Bool
  | ⟨.renameat _ _ _, .ok _⟩ => true
  | _ => false

/-- The config was replaced, but the directory could not be written to disk. -/
def Unsynced (past : List FileEvent) : Prop :=
  ∃ before rename parent code after,
    past = before ++ rename :: ⟨.fsync parent, .error code⟩ :: after ∧ isRename rename = true

/-- What the outcome of a command says about its calls. -/
def Outcome (past : List FileEvent) : Except Failure Unit -> Prop
  | .ok _ => ∃ event ∈ past, isRename event = true
  | .error _ => (∃ event ∈ past, isRename event = true) -> Unsynced past

section OneCommand

variable {Key : Type} (platform : Platform Key) (path : String) (process : Process)

/-- The command has opened the config and read it, and the data is the edited config. -/
def Loaded (past : List FileEvent) (data : Bytes) : Prop :=
  ∃ first early late contents config edited,
    past = ⟨.openFile path, .ok first⟩ ::
      (early ++ ⟨.readToEnd first, some contents⟩ :: late) ∧
    (∀ event ∈ early, event.call ≠ .close first) ∧
    platform.configFromJson contents = some config ∧
    platform.keys.runHosts config process.command = .ok edited ∧
    platform.configToJson edited = some data

/-- After loading, the command has opened the config again and taken its identity. -/
def Guarding (past : List FileEvent) (data : Bytes) (parent second : Nat)
    (identity : Stat) : Prop :=
  ∃ before guarded,
    past = before ++ ⟨.openat parent (platform.lastPathComponent path), .ok second⟩ ::
      guarded ∧
    Loaded platform path process before data ∧
    (⟨.fstat second, .ok identity⟩ : FileEvent) ∈ guarded ∧
    ∀ event ∈ guarded, event.call ≠ .close second

/-- The command has just found that the config is still the file whose identity it took. -/
def Prepared (past : List FileEvent) (data : Bytes) : Prop :=
  ∃ before parent second identity current,
    past = before ++ [⟨.fstatat parent (platform.lastPathComponent path), .ok current⟩] ∧
    Guarding platform path process before data parent second identity ∧
    sameFile identity current = true

/-- A command relies on a new descriptor being none that is open. It creates, fills and
removes its own replacement only, and renames it when it is prepared. -/
def hostsContract : Contract Call Call.Answer where
  relies past
    | ⟨.createat _ _, .ok fd⟩ => ¬HasOpen fd past
    | _ => True
  allows past
    | .createat _ name =>
        name = replacementName (platform.lastPathComponent path) process.uuid ∧
          draft past = .absent
    | .write fd _ => ∃ bytes, draft past = .writing fd bytes
    | .unlinkat _ name =>
        name = replacementName (platform.lastPathComponent path) process.uuid
    | .renameat _ source target =>
        source = replacementName (platform.lastPathComponent path) process.uuid ∧
          target = platform.lastPathComponent path ∧
          ∃ data, draft past = .complete data ∧
            Prepared platform path process past data
    | _ => True
  givesUp _ := True

variable {platform path process}
variable {past : List FileEvent}

/-! ## Loading -/

/-- The calls with which a command reads. -/
def Reads : Call -> Prop
  | .openFile _ => True
  | .openDirectory _ => True
  | .openat _ _ => True
  | .fstat _ => True
  | .fstatat _ _ => True
  | .readToEnd _ => True
  | .close _ => True
  | _ => False

theorem within_loadAgentConfig (effectiveUID : UInt32) :
    (loadAgentConfig platform path effectiveUID).Within Reads := by
  unfold loadAgentConfig readSafeFile openSafeFile
  refine .bind (.bind (.bind (within_perform trivial) ?_) ?_) ?_
  · intro opened
    cases opened with
    | error code => trivial
    | ok fd =>
        refine .bind (within_perform trivial) fun status => ?_
        dsimp only
        split
        · trivial
        · exact .bind (within_perform trivial) fun _ => trivial
  · intro fd
    refine .ensuring ?_ (.bind (within_perform trivial) fun _ => trivial)
    refine .bind (within_perform trivial) fun status => ?_
    cases status with
    | error code => trivial
    | ok st =>
        refine .bind (within_perform trivial) fun data => ?_
        cases data <;> trivial
  · rintro ⟨data, metadata⟩
    dsimp only
    split
    · trivial
    · split
      · exact .bind (within_done _) fun _ => trivial
      · trivial

theorem exists_open_of_openSafeFile
    {label : String}
    {privateMaterial : Bool}
    {effectiveUID : UInt32}
    {trace : List FileEvent}
    {fd : Nat}
    (ended : Ends (openSafeFile platform path label privateMaterial effectiveUID) trace
      (.ok fd)) :
    ∃ status, trace = [⟨.openFile path, .ok fd⟩, ⟨.fstat fd, status⟩] := by
  unfold openSafeFile at ended
  obtain ⟨opened, rest, rfl, continued⟩ := (ends_perform_bind _ _ _ _).mp ended
  cases opened with
  | error code => cases (ends_fail _ _ _).mp continued |>.2
  | ok first =>
      obtain ⟨status, checking, rfl, checked⟩ := (ends_perform_bind _ _ _ _).mp continued
      dsimp only at checked
      split at checked
      · obtain ⟨rfl, equal⟩ := (ends_pure _ _ _).mp checked
        obtain rfl := Except.ok.inj equal
        exact ⟨status, rfl⟩
      · obtain ⟨_, _, _, failed⟩ := (ends_perform_bind _ _ _ _).mp checked
        cases (ends_fail _ _ _).mp failed |>.2

theorem exists_read_of_readHandle
    {label : String}
    {trace : List FileEvent}
    {fd : Nat}
    {data : Bytes × Stat}
    (ended : Ends (readHandle platform fd label) trace (.ok data)) :
    ∃ status, trace = [⟨.fstat fd, status⟩, ⟨.readToEnd fd, some data.1⟩] := by
  unfold readHandle at ended
  obtain ⟨status, rest, rfl, continued⟩ := (ends_perform_bind _ _ _ _).mp ended
  cases status with
  | error code => cases (ends_fail _ _ _).mp continued |>.2
  | ok st =>
      obtain ⟨bytes, final, rfl, finished⟩ := (ends_perform_bind _ _ _ _).mp continued
      cases bytes with
      | none => cases (ends_fail _ _ _).mp finished |>.2
      | some bytes =>
          obtain ⟨rfl, equal⟩ := (ends_pure _ _ _).mp finished
          obtain rfl := Except.ok.inj equal
          exact ⟨.ok st, rfl⟩

/-- A config that was loaded was read from the file that the command opened. -/
theorem exists_read_of_loadAgentConfig
    {effectiveUID : UInt32}
    {trace : List FileEvent}
    {config : AgentConfig}
    (ended : Ends (loadAgentConfig platform path effectiveUID) trace (.ok config)) :
    ∃ first early late contents,
      trace = ⟨.openFile path, .ok first⟩ ::
        (early ++ ⟨.readToEnd first, some contents⟩ :: late) ∧
      (∀ event ∈ early, event.call ≠ .close first) ∧
      platform.configFromJson contents = some config := by
  unfold loadAgentConfig readSafeFile at ended
  obtain ⟨reading, decoding, ⟨data, metadata⟩, rfl, read, decoded⟩ :=
    (ends_bind_ok _ _ _ _).mp ended
  obtain ⟨opening, handling, first, rfl, opened, used⟩ := (ends_bind_ok _ _ _ _).mp read
  obtain ⟨middle, final, rfl, handled, closed⟩ := (ends_ensuring_ok _ _ _ _).mp used
  obtain ⟨openStatus, rfl⟩ := exists_open_of_openSafeFile opened
  obtain ⟨readStatus, rfl⟩ := exists_read_of_readHandle handled
  refine ⟨first, [⟨.fstat first, openStatus⟩, ⟨.fstat first, readStatus⟩], final ++ decoding,
    data, by simp, by simp, ?_⟩
  dsimp only at decoded
  cases found : platform.configFromJson data with
  | none =>
      rw [found] at decoded
      cases (ends_fail _ _ _).mp decoded |>.2
  | some loaded =>
      rw [found] at decoded
      dsimp only at decoded
      split at decoded
      · obtain ⟨_, _, _, _, _, returned⟩ := (ends_bind_ok _ _ _ _).mp decoded
        exact congrArg some (Except.ok.inj ((ends_pure _ _ _).mp returned).2).symm
      · exact congrArg some (Except.ok.inj ((ends_pure _ _ _).mp decoded).2).symm

/-! ## Replacing -/

theorem Guarding.snoc
    {data : Bytes}
    {parent second : Nat}
    {identity : Stat}
    (guarding : Guarding platform path process past data parent second identity)
    {event : FileEvent}
    (other : event.call ≠ .close second) :
    Guarding platform path process (past ++ [event]) data parent second identity := by
  obtain ⟨before, guarded, rfl, loaded, identified, stillOpen⟩ := guarding
  refine ⟨before, guarded ++ [event], by simp, loaded, by simp [identified], ?_⟩
  intro later member
  rcases List.mem_append.mp member with old | new
  · exact stillOpen later old
  · obtain rfl := List.mem_singleton.mp new
    exact other

theorem Guarding.hasOpen
    {data : Bytes}
    {parent second : Nat}
    {identity : Stat}
    (guarding : Guarding platform path process past data parent second identity) :
    HasOpen second past := by
  obtain ⟨before, guarded, rfl, _, _, stillOpen⟩ := guarding
  exact ⟨before, parent, _, guarded, rfl, stillOpen⟩

@[simp] theorem draft_append (past : List FileEvent) (event : FileEvent) :
    draft (past ++ [event]) = (draft past).after event := by
  simp [draft]

/-- No call of the command has replaced the config so far. -/
def Unrenamed (past : List FileEvent) : Prop :=
  ∀ event ∈ past, isRename event = false

theorem unrenamed_append
    {event : FileEvent} :
    Unrenamed (past ++ [event]) ↔ Unrenamed past ∧ isRename event = false := by
  simp [Unrenamed, or_imp, forall_and]

theorem Unrenamed.outcome
    (unrenamed : Unrenamed past)
    (error : Failure) :
    Outcome past (.error error) := by
  rintro ⟨event, member, renamed⟩
  rw [unrenamed event member] at renamed
  cases renamed

theorem Outcome.snoc
    {result : Except Failure Unit}
    (outcome : Outcome past result)
    {event : FileEvent}
    (other : isRename event = false) :
    Outcome (past ++ [event]) result := by
  cases result with
  | ok value =>
      obtain ⟨rename, member, renamed⟩ := outcome
      exact ⟨rename, by simp [member], renamed⟩
  | error error =>
      rintro ⟨rename, member, renamed⟩
      rcases List.mem_append.mp member with old | new
      · obtain ⟨before, swap, parent, code, after, rfl, swapped⟩ := outcome ⟨rename, old, renamed⟩
        exact ⟨before, swap, parent, code, after ++ [event], by simp, swapped⟩
      · obtain rfl := List.mem_singleton.mp new
        rw [other] at renamed
        cases renamed

/-- The command fills its replacement while it keeps the original open. -/
structure Filling (platform : Platform Key) (path : String) (process : Process)
    (past : List FileEvent) (data : Bytes) (parent second fd : Nat) (identity : Stat)
    (written : Bytes) : Prop where
  guarding : Guarding platform path process past data parent second identity
  draft : draft past = .writing fd written
  unrenamed : Unrenamed past

section Filling

variable {data written rest : Bytes} {parent second fd : Nat} {identity : Stat}

theorem Filling.snoc
    (filling : Filling platform path process past data parent second fd identity written)
    (event : FileEvent)
    {grown : Bytes}
    (notClosed : event.call ≠ .close second)
    (grows : (Draft.writing fd written).after event = .writing fd grown)
    (other : isRename event = false) :
    Filling platform path process (past ++ [event]) data parent second fd identity grown where
  guarding := filling.guarding.snoc notClosed
  draft := by rw [draft_append, filling.draft, grows]
  unrenamed := unrenamed_append.mpr ⟨filling.unrenamed, other⟩

theorem meets_writeAll
    (filling : Filling platform path process past data parent second fd identity written)
    (rounds : Nat) :
    (writeAll platform fd rounds rest).Meets (hostsContract platform path process) past
      fun later result => Unrenamed later ∧ (result = .ok () ->
        Filling platform path process later data parent second fd identity
          (written ++ rest)) := by
  induction rounds generalizing past written rest with
  | zero => trivial
  | succ rounds inductionHypothesis =>
      unfold writeAll
      split
      · rename_i empty
        subst empty
        exact ⟨filling.unrenamed, fun _ => by simpa using filling⟩
      · rw [meets_perform_bind]
        refine ⟨⟨written, filling.draft⟩, fun result _ => ?_⟩
        cases result with
        | interrupted =>
            exact inductionHypothesis (filling.snoc _ (by simp) rfl rfl)
        | failed code =>
            exact ⟨unrenamed_append.mpr ⟨filling.unrenamed, rfl⟩, by rintro ⟨⟩⟩
        | wrote count =>
            have grown : Filling platform path process
                (past ++ [⟨.write fd rest, .wrote count⟩]) data parent second fd identity
                (written ++ rest.take count.val) :=
              filling.snoc _ (by simp) (by simp [Draft.after]) rfl
            refine (inductionHypothesis grown).mono ?_
            rintro later outcome ⟨unrenamed, filled⟩
            refine ⟨unrenamed, fun returned => ?_⟩
            simpa only [List.append_assoc, List.take_append_drop] using filled returned

theorem meets_secureReplacement
    (filling : Filling platform path process past data parent second fd identity written)
    (privateMaterial : Bool) :
    (secureReplacement platform fd identity privateMaterial).Meets
      (hostsContract platform path process) past
      fun later result => Unrenamed later ∧ (result = .ok () ->
        Filling platform path process later data parent second fd identity written) := by
  unfold secureReplacement
  rw [meets_perform_bind]
  refine ⟨trivial, fun owned _ => ?_⟩
  have afterOwned := filling.snoc ⟨.fchown fd _ _, owned⟩ (by simp) rfl rfl
  cases owned with
  | error code => exact ⟨afterOwned.unrenamed, by rintro ⟨⟩⟩
  | ok _ =>
      dsimp only
      rw [meets_perform_bind]
      refine ⟨trivial, fun narrowed _ => ?_⟩
      have afterNarrowed := afterOwned.snoc ⟨.fchmod fd _, narrowed⟩ (by simp) rfl rfl
      cases narrowed with
      | error code => exact ⟨afterNarrowed.unrenamed, by rintro ⟨⟩⟩
      | ok _ =>
          dsimp only
          rw [meets_perform_bind]
          refine ⟨trivial, fun synced _ => ?_⟩
          have afterSynced := afterNarrowed.snoc ⟨.fsync fd, synced⟩ (by simp) rfl rfl
          cases synced with
          | error code => exact ⟨afterSynced.unrenamed, by rintro ⟨⟩⟩
          | ok _ => exact ⟨afterSynced.unrenamed, fun _ => afterSynced⟩

/-- The replacement is written and closed; the original is still open. -/
structure Filled (platform : Platform Key) (path : String) (process : Process)
    (past : List FileEvent) (data : Bytes) (parent second : Nat) (identity : Stat) : Prop where
  guarding : Guarding platform path process past data parent second identity
  draft : draft past = .complete data
  unrenamed : Unrenamed past

theorem meets_install
    (filled : Filled platform path process past data parent second identity) :
    (install platform parent (platform.lastPathComponent path)
        (replacementName (platform.lastPathComponent path) process.uuid) identity).Meets
      (hostsContract platform path process) past Outcome := by
  unfold install
  rw [meets_perform_bind]
  refine ⟨trivial, fun status _ => ?_⟩
  have stillUnrenamed : Unrenamed
      (past ++ [⟨.fstatat parent (platform.lastPathComponent path), status⟩]) :=
    unrenamed_append.mpr ⟨filled.unrenamed, rfl⟩
  cases status with
  | error code => exact stillUnrenamed.outcome _
  | ok current =>
      dsimp only
      split
      · rename_i same
        have prepared : Prepared platform path process
            (past ++ [⟨.fstatat parent (platform.lastPathComponent path), .ok current⟩]) data :=
          ⟨past, parent, second, identity, current, rfl, filled.guarding, same⟩
        have complete : draft
            (past ++ [⟨.fstatat parent (platform.lastPathComponent path), .ok current⟩]) =
              .complete data := by
          rw [draft_append, filled.draft]
          rfl
        rw [meets_perform_bind]
        refine ⟨⟨rfl, rfl, data, complete, prepared⟩, fun renamed _ => ?_⟩
        cases renamed with
        | error code =>
            exact (unrenamed_append.mpr ⟨stillUnrenamed, rfl⟩).outcome _
        | ok _ =>
            dsimp only
            rw [meets_perform_bind]
            refine ⟨trivial, fun synced _ => ?_⟩
            cases synced with
            | error code =>
                intro _
                exact ⟨_, _, parent, code, [], List.append_assoc _ _ _, rfl⟩
            | ok _ =>
                exact ⟨_, List.mem_append_left _ List.mem_concat_self, rfl⟩
      · exact stillUnrenamed.outcome _

theorem meets_closing
    {fd : Nat}
    {result : Except Failure Unit}
    (outcome : Outcome past result) :
    (closing fd).Meets (hostsContract platform path process) past
      fun later cleanup => cleanup = .ok () ∧ Outcome later result :=
  ⟨trivial, fun _ _ => ⟨rfl, outcome.snoc rfl⟩⟩

theorem meets_fillAndInstall
    (filling : Filling platform path process past data parent second fd identity [])
    (distinct : fd ≠ second)
    (rounds : Nat)
    (privateMaterial : Bool) :
    (fillAndInstall platform rounds parent fd (platform.lastPathComponent path)
        (replacementName (platform.lastPathComponent path) process.uuid) data identity
        privateMaterial).Meets
      (hostsContract platform path process) past Outcome := by
  have secured : (writeAll platform fd rounds data >>= fun _ =>
      secureReplacement platform fd identity privateMaterial).Meets
        (hostsContract platform path process) past
        fun later result => Unrenamed later ∧ (result = .ok () ->
          Filling platform path process later data parent second fd identity data) := by
    refine Meets.bind (meets_writeAll filling rounds) ?_ ?_
    · rintro later _ ⟨_, filled⟩
      exact meets_secureReplacement (filled rfl) privateMaterial
    · rintro later error ⟨unrenamed, _⟩
      exact ⟨unrenamed, by rintro ⟨⟩⟩
  refine Meets.attempt_bind secured ?_
  rintro later result ⟨unrenamed, filled⟩
  cases result with
  | error error =>
      refine Meets.bind (meets_closing (unrenamed.outcome error)) ?_ ?_
      · rintro final _ ⟨_, outcome⟩
        exact outcome
      · rintro final _ ⟨⟨⟩, _⟩
  | ok _ =>
      have full := filled rfl
      dsimp only
      rw [meets_perform_bind]
      refine ⟨trivial, fun closed _ => ?_⟩
      cases closed with
      | error code =>
          exact (unrenamed_append.mpr ⟨full.unrenamed, rfl⟩).outcome _
      | ok _ =>
          have complete : Filled platform path process (later ++ [⟨.close fd, .ok ()⟩]) data
              parent second identity :=
            ⟨full.guarding.snoc (by simpa using distinct), by simp [full.draft, Draft.after],
              unrenamed_append.mpr ⟨full.unrenamed, rfl⟩⟩
          exact meets_install complete

end Filling

/-! ## The whole command -/

theorem Meets.ensuring_outcome
    {body : Routine Unit}
    {cleanup : Routine Unit}
    (meets : body.Meets (hostsContract platform path process) past Outcome)
    (cleans : ∀ later result, Outcome later result ->
      cleanup.Meets (hostsContract platform path process) later
        fun final outcome => outcome = .ok () ∧ Outcome final result) :
    (body.ensuring cleanup).Meets (hostsContract platform path process) past Outcome := by
  refine Meets.ensuring meets fun later result outcome => ?_
  refine (cleans later result outcome).mono ?_
  rintro final _ ⟨rfl, kept⟩
  exact kept

theorem meets_replaceOriginal
    {before : List FileEvent}
    {data : Bytes}
    {parent second : Nat}
    (loaded : Loaded platform path process before data)
    (reopened : past = before ++
      [⟨.openat parent (platform.lastPathComponent path), .ok second⟩])
    (absent : draft past = .absent)
    (unrenamed : Unrenamed past)
    (rounds : Nat)
    (privateMaterial : Bool) :
    (replaceOriginal platform rounds parent second (platform.lastPathComponent path) data
        privateMaterial process).Meets
      (hostsContract platform path process) past Outcome := by
  unfold replaceOriginal
  rw [meets_perform_bind]
  refine ⟨trivial, fun status _ => ?_⟩
  have stillUnrenamed : Unrenamed (past ++ [⟨.fstat second, status⟩]) :=
    unrenamed_append.mpr ⟨unrenamed, rfl⟩
  cases status with
  | error code => exact stillUnrenamed.outcome _
  | ok identity =>
      have guarding : Guarding platform path process (past ++ [⟨.fstat second, .ok identity⟩])
          data parent second identity :=
        ⟨before, [⟨.fstat second, .ok identity⟩], by simp [reopened], loaded, by simp, by simp⟩
      have stillAbsent : draft (past ++ [⟨.fstat second, .ok identity⟩]) = .absent := by
        rw [draft_append, absent]
        rfl
      dsimp only
      rw [meets_bind]
      unfold liftExcept
      cases validateFileMetadata identity "agent config" false process.effectiveUID with
      | error error => exact stillUnrenamed.outcome (.agent error)
      | ok _ =>
          refine ⟨⟨rfl, stillAbsent⟩, fun created fresh => ?_⟩
          cases created with
          | error code => exact (unrenamed_append.mpr ⟨stillUnrenamed, rfl⟩).outcome _
          | ok fd =>
              have distinct : fd ≠ second := by
                rintro rfl
                exact fresh guarding.hasOpen
              refine Meets.ensuring_outcome ?_ ?_
              · refine meets_fillAndInstall ⟨guarding.snoc (by simp), ?_, ?_⟩ distinct _ _
                · rw [draft_append, stillAbsent]
                  rfl
                · exact unrenamed_append.mpr ⟨stillUnrenamed, rfl⟩
              · intro later result outcome
                exact ⟨rfl, fun _ _ => ⟨rfl, outcome.snoc rfl⟩⟩

theorem Loaded.snoc
    {data : Bytes}
    (loaded : Loaded platform path process past data)
    (event : FileEvent) :
    Loaded platform path process (past ++ [event]) data := by
  obtain ⟨first, early, late, contents, config, edited, rfl, stillOpen, meaning⟩ := loaded
  exact ⟨first, early, late ++ [event], contents, config, edited, by simp, stillOpen, meaning⟩

/-- The command has loaded and edited the config and has created nothing yet. -/
structure Preparing (platform : Platform Key) (path : String) (process : Process)
    (past : List FileEvent) (data : Bytes) : Prop where
  loaded : Loaded platform path process past data
  absent : draft past = .absent
  unrenamed : Unrenamed past

theorem Preparing.snoc
    {data : Bytes}
    (preparing : Preparing platform path process past data)
    (event : FileEvent)
    (noDraft : Draft.absent.after event = .absent)
    (other : isRename event = false) :
    Preparing platform path process (past ++ [event]) data where
  loaded := preparing.loaded.snoc event
  absent := by rw [draft_append, preparing.absent, noDraft]
  unrenamed := unrenamed_append.mpr ⟨preparing.unrenamed, other⟩

theorem meets_replaceInDirectory
    {data : Bytes}
    (preparing : Preparing platform path process past data)
    (rounds parent : Nat)
    (privateMaterial : Bool) :
    (replaceInDirectory platform rounds parent (platform.lastPathComponent path) data
        privateMaterial process).Meets
      (hostsContract platform path process) past Outcome := by
  unfold replaceInDirectory
  rw [meets_perform_bind]
  refine ⟨trivial, fun directory _ => ?_⟩
  have checked := preparing.snoc ⟨.fstat parent, directory⟩ rfl rfl
  split
  · rw [meets_perform_bind]
    refine ⟨trivial, fun opened _ => ?_⟩
    have reopened := checked.snoc
      ⟨.openat parent (platform.lastPathComponent path), opened⟩ rfl rfl
    cases opened with
    | error code => exact reopened.unrenamed.outcome _
    | ok second =>
        refine Meets.ensuring_outcome ?_ fun later result outcome => meets_closing outcome
        exact meets_replaceOriginal checked.loaded rfl reopened.absent reopened.unrenamed _ _
  · exact checked.unrenamed.outcome _

theorem meets_replaceConfigFile
    {data : Bytes}
    (preparing : Preparing platform path process past data)
    (rounds : Nat)
    (privateMaterial : Bool) :
    (replaceConfigFile platform rounds path data privateMaterial process).Meets
      (hostsContract platform path process) past Outcome := by
  unfold replaceConfigFile
  rw [meets_perform_bind]
  refine ⟨trivial, fun opened _ => ?_⟩
  have inside := preparing.snoc ⟨.openDirectory _, opened⟩ rfl rfl
  cases opened with
  | error code => exact inside.unrenamed.outcome _
  | ok parent =>
      refine Meets.ensuring_outcome ?_ fun later result outcome => meets_closing outcome
      exact meets_replaceInDirectory inside rounds parent privateMaterial

/-- Reading makes no replacement and replaces nothing. -/
theorem absent_of_reads
    {trace : List FileEvent}
    (reads : ∀ event ∈ trace, Reads event.call) :
    draft trace = .absent ∧ Unrenamed trace := by
  induction trace using List.reverseRecOn with
  | nil => exact ⟨rfl, by simp [Unrenamed]⟩
  | append_singleton trace event inductionHypothesis =>
      obtain ⟨absent, unrenamed⟩ :=
        inductionHypothesis fun earlier member => reads earlier (by simp [member])
      have read := reads event (by simp)
      rw [draft_append, absent, unrenamed_append]
      obtain ⟨request, answer⟩ := event
      cases request <;> first | exact ⟨rfl, unrenamed, rfl⟩ | exact read.elim

/-- A command keeps to the contract, and its outcome tells whether it replaced the
config. -/
theorem meets_runHosts
    (rounds : Nat) :
    (runHosts platform rounds path process).Meets (hostsContract platform path process) []
      Outcome := by
  have allowed (past : List FileEvent) (request : Call) (reads : Reads request) :
      (hostsContract platform path process).allows past request := by
    cases request <;> trivial
  have loading : (loadAgentConfig platform path process.effectiveUID).Meets
      (hostsContract platform path process) [] fun later result =>
        Ends (loadAgentConfig platform path process.effectiveUID) later result := by
    refine (Within.meets (within_loadAgentConfig _) allowed fun _ => trivial).mono ?_
    rintro trace result ⟨_, rfl, ended⟩
    exact ended
  refine Meets.bind loading ?_ ?_
  · intro past config ended
    obtain ⟨absent, unrenamed⟩ := absent_of_reads ((within_loadAgentConfig _).calls ended)
    obtain ⟨first, early, late, contents, history, stillOpen, decoded⟩ :=
      exists_read_of_loadAgentConfig ended
    unfold liftExcept
    cases changed : platform.keys.runHosts config process.command with
    | error error => exact unrenamed.outcome (.agent error)
    | ok edited =>
        change (writeAgentConfig platform rounds edited path process).Meets _ _ _
        unfold writeAgentConfig
        cases encoded : platform.configToJson edited with
        | none => exact unrenamed.outcome .coding
        | some data =>
            have loaded : Loaded platform path process past data :=
              ⟨first, early, late, contents, config, edited, history, stillOpen, decoded,
                changed, encoded⟩
            exact meets_replaceConfigFile ⟨loaded, absent, unrenamed⟩ rounds _
  · intro past error ended
    exact (absent_of_reads ((within_loadAgentConfig _).calls ended)).2.outcome error

end OneCommand

end ConfigFile
end Agent
end MacosAuth
