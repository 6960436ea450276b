import MacosAuth.Helper.Replay

/-!
# A response passes the replay cache at most once

Any number of helpers share one cache directory and are shown the same response to
the same request. Each reads the clock for the freshness check, reads it again for
the cleanup, examines and removes markers one at a time, creates its marker and
writes the expiry into it; all these steps may be interleaved in any order.

As long as no helper cleans up with a clock that is past the expiry of the response,
at most one of them gets past the freshness check and the replay cache. A helper that
finds the response fresh at the last moment and reads the clock for its cleanup just
after it removes the marker of another helper, and then both pass.

Two things are assumed of the directory. A write to a marker is complete or fails, so
that the digits of the expiry are there or not. A marker of the response that is there
at the start holds what a helper has written of its expiry.
-/

namespace MacosAuth
namespace Helper

open Codec
open Protocol (utf8 SignedAuthRequest SignedAuthResponse)
open Effect Effect.Program

/-- The clock and the cache directory that the helpers share. -/
structure CacheWorld where
  /-- Wall clock in milliseconds. -/
  clock : Nat
  entries : Bytes -> Option File
  contents : File -> Bytes
  /-- The next inode to be used. -/
  next : File

/-- How the cache directory answers. Reads of a regular file return what there is up
to the limit, and writes to it append everything or fail. All other calls, listing the
directory included, may be answered in any way. -/
def CacheWorld.Serves (world : CacheWorld) :
    (request : Call) -> request.Answer -> CacheWorld -> Prop
  | .wallClock, some now, after => now.toNat = world.clock ∧ after = world
  | .openat _ name _, .ok file, after => world.entries name = some file ∧ after = world
  | .read file position limit, .ok chunk, after =>
      chunk.val = ((world.contents file).drop position).take limit ∧ after = world
  | .createat _ name, .created file, after =>
      world.entries name = none ∧ file = world.next ∧
        after = { world with
          entries := Function.update world.entries name (some file)
          contents := Function.update world.contents file []
          next := file + 1 }
  | .createat _ name, .alreadyExists, after => world.entries name ≠ none ∧ after = world
  | .write file bytes, .ok count, after =>
      count.val = bytes.length ∧
        after = { world with
          contents := Function.update world.contents file (world.contents file ++ bytes) }
  | .unlinkat _ name, _, after =>
      after = { world with entries := Function.update world.entries name none }
  | _, _, after => after = world

/-- Helpers on one machine with a clock that does not go back. -/
def cacheSystem (ι : Type) : System ι (fun _ => Call) (fun _ => Call.Answer) CacheWorld where
  serves _ := CacheWorld.Serves
  drifts before after :=
    before.clock ≤ after.clock ∧ after = { before with clock := after.clock }

/-! ## What one helper does to the markers -/

/-- The file was opened under the name. -/
def Opened (name : Bytes) (file : File) (past : List HelperEvent) : Prop :=
  ∃ directory onlyDirectory,
    (⟨.openat directory name onlyDirectory, .ok file⟩ : HelperEvent) ∈ past

/-- The file was created under the name. -/
def Created (name : Bytes) (file : File) (past : List HelperEvent) : Prop :=
  ∃ directory, (⟨.createat directory name, .created file⟩ : HelperEvent) ∈ past

def isWrite : HelperEvent -> Bool
  | ⟨.write _ _, .ok _⟩ => true
  | _ => false

/-- The number of successful writes. -/
def writes (past : List HelperEvent) : Nat :=
  past.countP isWrite

/-- The readings of the wall clock, in order. -/
def wallReadings (past : List HelperEvent) : List UInt64 :=
  past.filterMap fun
    | ⟨.wallClock, some now⟩ => some now
    | _ => none

/-- A helper relies on markers of the name holding the response's expiry, as far as
it has been written, and on cleaning up before that time. It removes only markers of
another name, creates only that name, and writes the pieces of the expiry in order to
the file that it has created. -/
def markerContract (marker : Bytes) (expiresAtMs : UInt64) : Contract Call Call.Answer where
  relies past
    | ⟨.wallClock, some now⟩ => wallReadings past ≠ [] -> now ≤ expiresAtMs
    | ⟨.read file position limit, .ok chunk⟩ =>
        Opened marker file past ->
          ∃ text, MarkerText expiresAtMs text ∧ chunk.val = (text.drop position).take limit
    | ⟨.write _ bytes, .ok count⟩ => count.val = bytes.length
    | _ => True
  allows past
    | .unlinkat _ name => name ≠ marker
    | .createat _ name => name = marker
    | .write file bytes => Created marker file past ∧
        (markerPieces expiresAtMs)[writes past]?.map utf8 = some bytes
    | _ => True
  givesUp _ := True

section OneHelper

variable {marker : Bytes} {expiresAtMs : UInt64} {past : List HelperEvent}

@[simp] theorem writes_nil : writes [] = 0 :=
  rfl

@[simp] theorem writes_cons (event : HelperEvent) (rest : List HelperEvent) :
    writes (event :: rest) = writes rest + if isWrite event then 1 else 0 := by
  simp [writes, List.countP_cons]

@[simp] theorem writes_append (first second : List HelperEvent) :
    writes (first ++ second) = writes first + writes second := by
  simp [writes]

@[simp] theorem wallReadings_append (first second : List HelperEvent) :
    wallReadings (first ++ second) = wallReadings first ++ wallReadings second := by
  simp [wallReadings]

/-- The text that a marker has when it is read on from an earlier text. -/
theorem MarkerText.continued
    {gathered text : Bytes}
    (before : MarkerText expiresAtMs gathered)
    (now : MarkerText expiresAtMs text) :
    MarkerText expiresAtMs
      (gathered ++ (text.drop gathered.length).take (128 - gathered.length)) := by
  have short := now.length_le
  rw [List.take_of_length_le (by rw [List.length_drop]; omega)]
  rcases before.prefix_or_prefix now with ⟨rest, rfl⟩ | shorter
  · simpa using now
  · rw [List.drop_eq_nil_of_le shorter.length_le]
    simpa using before

/-- Reading a marker of the name yields what has been written of the expiry. -/
theorem meets_readUpTo
    {file : File}
    {left : Nat}
    {gathered : Bytes}
    (known : Opened marker file past -> MarkerText expiresAtMs gathered) :
    (readUpTo file 128 left gathered).Meets (markerContract marker expiresAtMs) past
      fun later result => writes later = writes past ∧
        ∀ bytes, result = .ok bytes -> Opened marker file past ->
          MarkerText expiresAtMs bytes := by
  induction left generalizing past gathered with
  | zero => simpa [readUpTo] using known
  | succ left inductionHypothesis =>
      unfold readUpTo
      split
      · simpa using known
      · rw [meets_perform_bind]
        refine ⟨trivial, fun answer relied => ?_⟩
        cases answer with
        | error code =>
            refine ⟨by simp [isWrite], ?_⟩
            rintro bytes ⟨⟩
        | ok chunk =>
            change Meets _ (if chunk.val = [] then pure gathered else
              readUpTo file 128 left (gathered ++ chunk.val)) _ _
            have continued : Opened marker file past ->
                MarkerText expiresAtMs (gathered ++ chunk.val) := by
              intro opened
              obtain ⟨text, written, chunk_eq⟩ := relied opened
              rw [chunk_eq]
              exact (known opened).continued written
            have sameOpened (later : Opened marker file (past ++
                [⟨.read file gathered.length (128 - gathered.length), .ok chunk⟩])) :
                Opened marker file past := by
              simpa [Opened] using later
            split
            · refine ⟨by simp [isWrite], ?_⟩
              rintro bytes ⟨⟩ opened
              exact known opened
            · refine (inductionHypothesis fun later => continued (sameOpened later)).mono ?_
              rintro later result ⟨unchanged, read⟩
              refine ⟨by simp [unchanged, isWrite], ?_⟩
              intro bytes returned opened
              refine read bytes returned ?_
              obtain ⟨directory, onlyDirectory, member⟩ := opened
              exact ⟨directory, onlyDirectory, by simp [member]⟩

theorem meets_readToString
    {file : File} :
    (readToString file 128).Meets (markerContract marker expiresAtMs) past
      fun later result => writes later = writes past ∧
        ∀ text, result = .ok text -> Opened marker file past ->
          ∃ bytes, MarkerText expiresAtMs bytes ∧ decodeUtf8 bytes = some text := by
  refine Meets.bind (meets_readUpTo fun _ => ⟨0, rfl⟩) ?_ ?_
  · rintro later bytes ⟨unchanged, read⟩
    split
    · rename_i text decoded
      refine ⟨unchanged, ?_⟩
      rintro _ ⟨⟩ opened
      exact ⟨bytes, read bytes rfl opened, decoded⟩
    · exact ⟨unchanged, by rintro _ ⟨⟩⟩
  · rintro later error ⟨unchanged, _⟩
    exact ⟨unchanged, by rintro _ ⟨⟩⟩

/-- The cleanup leaves markers of the name alone until they have expired. -/
theorem meets_cleanupMarker
    {directory : File}
    {now : UInt64}
    (early : now ≤ expiresAtMs)
    (name : Bytes) :
    (Trust.cleanupMarker directory now name).Meets (markerContract marker expiresAtMs) past
      fun later _ => writes later = writes past := by
  unfold Trust.cleanupMarker
  rw [meets_perform_bind]
  refine ⟨trivial, fun opened _ => ?_⟩
  cases opened with
  | error code => simp [isWrite]
  | ok file =>
      change Meets _ (perform (Call.fstat file) >>= _) _ _
      rw [meets_perform_bind]
      refine ⟨trivial, fun metadata _ => ?_⟩
      cases metadata with
      | error code => simp [isWrite]
      | ok metadata =>
          dsimp only
          split
          · refine Meets.attempt_bind meets_readToString ?_
            rintro later contents ⟨unchanged, read⟩
            have unwritten : writes later = writes past := by
              simpa [isWrite] using unchanged
            cases contents with
            | error error => exact unwritten
            | ok text =>
                dsimp only
                split
                · rename_i expired
                  rw [meets_perform]
                  refine ⟨?_, fun _ _ => by simpa [isWrite] using unwritten⟩
                  rintro rfl
                  obtain ⟨bytes, written, decoded⟩ :=
                    read text rfl ⟨directory, false, by simp⟩
                  obtain ⟨expiry, parsed, before⟩ := (Option.any_eq_true _ _).mp expired
                  obtain rfl := parseExpiresAtMs_markerText written decoded parsed
                  exact UInt64.not_lt.mpr early (of_decide_eq_true before)
                · exact unwritten
          · simp [isWrite]

theorem meets_cleanupLoop
    {directory : File}
    {now : UInt64}
    (early : now ≤ expiresAtMs)
    (rounds : Nat) :
    (Trust.cleanupLoop directory now rounds).Meets (markerContract marker expiresAtMs) past
      fun later _ => writes later = writes past := by
  induction rounds generalizing past with
  | zero => trivial
  | succ rounds inductionHypothesis =>
      unfold Trust.cleanupLoop
      rw [meets_perform_bind]
      refine ⟨trivial, fun entry _ => ?_⟩
      cases entry with
      | none => simp [isWrite]
      | some name =>
          have examined : (Trust.cleanupEntry directory now name).Meets
              (markerContract marker expiresAtMs) (past ++ [⟨.readdir directory, some name⟩])
              fun later _ => writes later = writes past := by
            unfold Trust.cleanupEntry
            split
            · refine (meets_cleanupMarker early name).mono fun later _ unchanged => ?_
              simpa [isWrite] using unchanged
            · simp [isWrite]
          refine Meets.bind examined ?_ ?_
          · intro later _ unchanged
            refine inductionHypothesis.mono fun final _ finalUnchanged => ?_
            rw [finalUnchanged, unchanged]
          · exact fun later _ unchanged => unchanged

theorem markerPieces_ne_nil
    {piece : String}
    (member : piece ∈ markerPieces expiresAtMs) :
    utf8 piece ≠ [] := by
  have digits : expiresAtMs.toNat.repr ≠ "" := by
    intro empty
    have none := congrArg String.toList empty
    rw [Nat.toList_repr] at none
    exact Nat.toDigits_ne_nil none
  intro empty
  have blank : piece = "" := Protocol.utf8_injective (by rw [empty]; rfl)
  subst blank
  simp only [markerPieces, List.mem_cons, List.not_mem_nil, or_false] at member
  rcases member with first | second | third
  · exact absurd first (by decide)
  · exact digits second.symm
  · exact absurd third (by decide)

theorem meets_writeFile
    {file : File}
    {bytes : Bytes}
    (created : Created marker file past)
    (turn : (markerPieces expiresAtMs)[writes past]?.map utf8 = some bytes) :
    (writeFile file bytes).Meets (markerContract marker expiresAtMs) past
      fun later result => ∀ count, result = .ok count ->
        count.val = bytes.length ∧ writes later = writes past + 1 ∧
          Created marker file later := by
  unfold writeFile
  rw [meets_perform_bind]
  refine ⟨⟨created, turn⟩, fun answer relied => ?_⟩
  cases answer with
  | error code => rintro count ⟨⟩
  | ok count =>
      rintro _ ⟨⟩
      obtain ⟨directory, member⟩ := created
      exact ⟨relied, by simp [isWrite], directory, by simp [member]⟩

/-- A piece is written by a single write. -/
theorem meets_writePiece
    {file : File}
    {piece : String}
    (nonempty : utf8 piece ≠ [])
    (created : Created marker file past)
    (turn : (markerPieces expiresAtMs)[writes past]? = some piece) :
    (writeAll (writeFile file) (utf8 piece).length (utf8 piece)).Meets
      (markerContract marker expiresAtMs) past
      fun later result => result = .ok () ->
        writes later = writes past + 1 ∧ Created marker file later := by
  obtain ⟨left, length_eq⟩ : ∃ left, (utf8 piece).length = left + 1 :=
    Nat.exists_eq_succ_of_ne_zero fun zero => nonempty (List.length_eq_zero_iff.mp zero)
  have finished : writeAll (writeFile file) left [] = pure () := by
    cases left <;> simp [writeAll]
  rw [length_eq, writeAll, if_neg nonempty]
  refine Meets.bind (meets_writeFile created (by rw [turn]; rfl)) ?_ ?_
  · intro later count written
    obtain ⟨count_eq, counted, stillCreated⟩ := written count rfl
    have progress : count.val ≠ 0 := by
      rw [count_eq, length_eq]
      exact Nat.succ_ne_zero left
    rw [if_neg progress, count_eq, List.drop_length, finished]
    exact fun _ => ⟨counted, stillCreated⟩
  · rintro later error _ ⟨⟩

/-- The expiry is written in order into the file that was created. -/
theorem meets_writePieces
    {file : File}
    {pieces : List String}
    (created : Created marker file past)
    (turn : (markerPieces expiresAtMs).drop (writes past) = pieces) :
    (writePieces file pieces).Meets (markerContract marker expiresAtMs) past
      fun _ _ => True := by
  induction pieces generalizing past with
  | nil => trivial
  | cons piece rest inductionHypothesis =>
      have now : (markerPieces expiresAtMs)[writes past]? = some piece := by
        rw [← List.head?_drop, turn, List.head?_cons]
      have nonempty : utf8 piece ≠ [] := markerPieces_ne_nil (List.mem_of_getElem? now)
      refine Meets.bind (meets_writePiece nonempty created now) ?_ fun _ _ _ => trivial
      intro later _ written
      obtain ⟨count, stillCreated⟩ := written rfl
      refine inductionHypothesis stillCreated ?_
      rw [count, ← List.drop_drop, turn, List.drop_one, List.tail_cons]

theorem meets_createMarker
    {directory : File} :
    (Trust.createMarker directory marker).Meets (markerContract marker expiresAtMs) past
      fun later result => writes later = writes past ∧
        ∀ file, result = .ok file -> Created marker file later := by
  unfold Trust.createMarker
  cases named : Trust.name marker with
  | error error => exact ⟨rfl, by rintro _ ⟨⟩⟩
  | ok name =>
      obtain rfl : marker = name := by
        unfold Trust.name at named
        split at named
        · exact absurd named (by simp)
        · exact Except.ok.inj named
      change Meets _ (perform (Call.createat directory marker) >>= _) _ _
      rw [meets_perform_bind]
      refine ⟨rfl, fun result _ => ?_⟩
      cases result with
      | created file =>
          refine ⟨by simp [isWrite], ?_⟩
          rintro _ ⟨⟩
          exact ⟨directory, by simp⟩
      | alreadyExists => exact ⟨by simp [isWrite], by rintro _ ⟨⟩⟩
      | failed code => exact ⟨by simp [isWrite], by rintro _ ⟨⟩⟩

theorem meets_cleanupMarkers
    {directory : File}
    {now : UInt64}
    (early : now ≤ expiresAtMs)
    (rounds : Nat) :
    (Trust.cleanupMarkers directory now rounds).Meets (markerContract marker expiresAtMs) past
      fun later _ => writes later = writes past := by
  unfold Trust.cleanupMarkers
  rw [meets_perform_bind]
  refine ⟨trivial, fun opened _ => ?_⟩
  cases opened with
  | error code =>
      change writes (past ++ [_]) = writes past
      simp [isWrite]
  | ok _ =>
      refine (meets_cleanupLoop early rounds).mono fun later _ unchanged => ?_
      simpa [isWrite] using unchanged

theorem meets_unixTimeMs :
    unixTimeMs.Meets (markerContract marker expiresAtMs) past
      fun later result => writes later = writes past ∧
        ∀ now, result = .ok now -> wallReadings later ≠ [] ∧
          (wallReadings past ≠ [] -> now ≤ expiresAtMs) := by
  unfold unixTimeMs
  rw [meets_perform_bind]
  refine ⟨trivial, fun reading relied => ?_⟩
  cases reading with
  | none => exact ⟨by simp [isWrite], by rintro _ ⟨⟩⟩
  | some now =>
      refine ⟨by simp [isWrite], ?_⟩
      rintro _ ⟨⟩
      exact ⟨by simp [wallReadings], relied⟩

/-- A helper that has read the clock once records its marker by the rules, and it has
created the marker if it succeeds. -/
theorem meets_recordReplayMarker
    {digest : Bytes -> Bytes}
    {response : SignedAuthResponse}
    (rounds : Nat)
    (directory : File)
    (read : wallReadings past ≠ [])
    (unwritten : writes past = 0) :
    (recordReplayMarker digest rounds directory response).Meets
      (markerContract (hexEncode (digest response.signature)) response.body.expiresAtMs) past
      fun later result => result = .ok () ->
        ∃ file, Created (hexEncode (digest response.signature)) file later := by
  refine Meets.bind meets_unixTimeMs ?_ (by rintro _ _ _ ⟨⟩)
  rintro afterClock now ⟨clockUnwritten, clock⟩
  have early := (clock now rfl).2 read
  refine Meets.mapError_bind (meets_cleanupMarkers early rounds) ?_ (by rintro _ _ _ ⟨⟩)
  intro afterCleanup _ cleanupUnwritten
  refine Meets.attempt_bind meets_createMarker ?_
  rintro afterCreate created ⟨createUnwritten, isCreated⟩
  cases created with
  | error error =>
      cases error <;> rintro ⟨⟩
  | ok file =>
      have marked := isCreated file rfl
      have turn : (markerPieces response.body.expiresAtMs).drop (writes afterCreate) =
          markerPieces response.body.expiresAtMs := by
        rw [createUnwritten, cleanupUnwritten, clockUnwritten, unwritten, List.drop_zero]
      refine (meets_mapError _ _ _).mpr ((meets_writePieces marked turn).extends.mono ?_)
      rintro later result ⟨extended, _⟩ _
      obtain ⟨directory, member⟩ := marked
      exact ⟨file, directory, extended.subset member⟩

/-- A helper screens a response by the rules, and it has created the marker if the
response passes. -/
theorem meets_screenResponse
    (digest : Bytes -> Bytes)
    (rounds deadline : Nat)
    (request : SignedAuthRequest)
    (allowedFutureSkewMs : UInt64)
    (directory : File)
    (response : SignedAuthResponse) :
    (screenResponse digest rounds deadline request allowedFutureSkewMs (some directory)
        response).Meets
      (markerContract (hexEncode (digest response.signature)) response.body.expiresAtMs) []
      fun later result => result = .ok () ->
        ∃ file, Created (hexEncode (digest response.signature)) file later := by
  refine Meets.mapError_bind meets_unixTimeMs ?_ (by rintro _ _ _ ⟨⟩)
  rintro afterClock now ⟨clockUnwritten, clock⟩
  have read := (clock now rfl).1
  have checked : (checkDeadline deadline).Meets
      (markerContract (hexEncode (digest response.signature)) response.body.expiresAtMs)
      afterClock fun later _ => writes later = 0 ∧ wallReadings later ≠ [] := by
    unfold checkDeadline
    rw [meets_perform_bind]
    refine ⟨trivial, fun instant _ => ?_⟩
    have unchanged : writes (afterClock ++ [⟨.instant, instant⟩]) = 0 ∧
        wallReadings (afterClock ++ [⟨.instant, instant⟩]) ≠ [] := by
      simp [clockUnwritten, isWrite, read]
    split
    · exact unchanged
    · exact unchanged
  refine Meets.attempt_bind checked ?_
  rintro afterCheck inTime ⟨unwritten, stillRead⟩
  split
  · split
    · refine Meets.attempt_bind (meets_recordReplayMarker rounds directory stillRead
        unwritten) ?_
      intro later recorded created
      cases recorded with
      | ok _ => exact fun _ => created rfl
      | error error => rintro ⟨⟩
    · rintro ⟨⟩
  · rintro ⟨⟩

end OneHelper

/-! ## Many helpers -/

/-- What an allowed call can do to the markers of the name. -/
inductive MarkerStep (marker : Bytes) (expiresAtMs : UInt64) (past : List HelperEvent)
    (world : CacheWorld) : HelperEvent -> CacheWorld -> Prop
  | create {directory file : File} {after : CacheWorld} :
      world.entries marker = none ->
      after.entries marker = some file -> after.contents file = [] ->
      MarkerStep marker expiresAtMs past world
        ⟨.createat directory marker, .created file⟩ after
  | write {file : File} {bytes : Bytes} {count : Fin (bytes.length + 1)}
      {after : CacheWorld} :
      Created marker file past ->
      (markerPieces expiresAtMs)[writes past]?.map utf8 = some bytes ->
      after.entries = world.entries ->
      after.contents = Function.update world.contents file (world.contents file ++ bytes) ->
      MarkerStep marker expiresAtMs past world ⟨.write file bytes, .ok count⟩ after
  | other {event : HelperEvent} {after : CacheWorld} :
      after.entries marker = world.entries marker -> after.contents = world.contents ->
      isWrite event = false ->
      (∀ file, ¬Created marker file [event]) ->
      (∀ file, Opened marker file [event] -> world.entries marker = some file) ->
      MarkerStep marker expiresAtMs past world event after

section ManyHelpers

variable {marker : Bytes} {expiresAtMs : UInt64} {past : List HelperEvent}

theorem markerStep_of_serves
    {world after : CacheWorld}
    {request : Call}
    {answer : request.Answer}
    (allowed : (markerContract marker expiresAtMs).allows past request)
    (served : world.Serves request answer after) :
    MarkerStep marker expiresAtMs past world ⟨request, answer⟩ after := by
  unfold CacheWorld.Serves at served
  split at served
  · obtain ⟨_, rfl⟩ := served
    exact .other rfl rfl rfl (by simp [Created]) (by simp [Opened])
  · obtain ⟨found, rfl⟩ := served
    refine .other rfl rfl rfl (by simp [Created]) ?_
    rintro file ⟨_, _, member⟩
    obtain ⟨⟩ := List.mem_singleton.mp member
    exact found
  · obtain ⟨_, rfl⟩ := served
    exact .other rfl rfl rfl (by simp [Created]) (by simp [Opened])
  · obtain ⟨absent, rfl, rfl⟩ := served
    obtain rfl : _ = marker := allowed
    exact .create absent (by simp) (by simp)
  · obtain ⟨_, rfl⟩ := served
    exact .other rfl rfl rfl (by simp [Created]) (by simp [Opened])
  · obtain ⟨_, rfl⟩ := served
    exact .write allowed.1 allowed.2 rfl rfl
  · subst served
    have different : _ ≠ marker := allowed
    exact .other (by simp [Function.update_of_ne (Ne.symm different)]) rfl rfl
      (by simp [Created]) (by simp [Opened])
  · rename_i noClock noOpen noRead noCreate noExists noWrite noUnlink
    subst served
    refine .other rfl rfl ?_ ?_ ?_
    · unfold isWrite
      split
      · rename_i isWritten
        cases isWritten
        exact (noWrite _ _ _ rfl HEq.rfl).elim
      · rfl
    · rintro file ⟨directory, member⟩
      cases List.mem_singleton.mp member
      exact noCreate _ _ _ rfl HEq.rfl
    · rintro file ⟨directory, onlyDirectory, member⟩
      cases List.mem_singleton.mp member
      exact (noOpen _ _ _ _ rfl HEq.rfl).elim

/-- The markers of the name hold the expiry as far as it has been written, they stay
where they are found or created, and one helper at most has created one. -/
structure CacheInvariant {ι : Type} (marker : Bytes) (expiresAtMs : UInt64)
    (pasts : ι -> List HelperEvent) (world : CacheWorld) : Prop where
  text : ∀ file, world.entries marker = some file ->
    MarkerText expiresAtMs (world.contents file)
  opened : ∀ thread file, Opened marker file (pasts thread) ->
    world.entries marker = some file
  created : ∀ thread file, Created marker file (pasts thread) ->
    world.entries marker = some file ∧ world.contents file =
      ((markerPieces expiresAtMs).take (writes (pasts thread))).flatMap utf8
  unique : ∀ left right leftFile rightFile, Created marker leftFile (pasts left) ->
    Created marker rightFile (pasts right) -> left = right
  unwritten : ∀ thread, (∀ file, ¬Created marker file (pasts thread)) ->
    writes (pasts thread) = 0

theorem opened_append
    {file : File}
    {first second : List HelperEvent} :
    Opened marker file (first ++ second) ↔
      Opened marker file first ∨ Opened marker file second := by
  simp only [Opened, List.mem_append, exists_or]

theorem created_append
    {file : File}
    {first second : List HelperEvent} :
    Created marker file (first ++ second) ↔
      Created marker file first ∨ Created marker file second := by
  simp only [Created, List.mem_append, exists_or]

/-- One more piece of a marker. -/
theorem take_pieces_succ
    {count : Nat}
    {bytes : Bytes}
    (turn : (markerPieces expiresAtMs)[count]?.map utf8 = some bytes) :
    ((markerPieces expiresAtMs).take (count + 1)).flatMap utf8 =
      ((markerPieces expiresAtMs).take count).flatMap utf8 ++ bytes := by
  obtain ⟨piece, found, rfl⟩ := Option.map_eq_some_iff.mp turn
  rw [List.take_add_one, found, List.flatMap_append]
  simp

variable {ι : Type} [DecidableEq ι]

/-- A call of one helper is new to that helper only. -/
theorem created_update
    {pasts : ι -> List HelperEvent}
    {thread other : ι}
    {event : HelperEvent}
    {file : File} :
    Created marker file (Function.update pasts thread (pasts thread ++ [event]) other) ↔
      Created marker file (pasts other) ∨ other = thread ∧ Created marker file [event] := by
  rcases eq_or_ne other thread with rfl | different
  · simp [created_append]
  · simp [different]

theorem opened_update
    {pasts : ι -> List HelperEvent}
    {thread other : ι}
    {event : HelperEvent}
    {file : File} :
    Opened marker file (Function.update pasts thread (pasts thread ++ [event]) other) ↔
      Opened marker file (pasts other) ∨ other = thread ∧ Opened marker file [event] := by
  rcases eq_or_ne other thread with rfl | different
  · simp [opened_append]
  · simp [different]

theorem writes_update
    (pasts : ι -> List HelperEvent)
    (thread other : ι)
    (event : HelperEvent) :
    writes (Function.update pasts thread (pasts thread ++ [event]) other) =
      writes (pasts other) + if other = thread ∧ isWrite event = true then 1 else 0 := by
  rcases eq_or_ne other thread with rfl | different
  · simp
  · simp [different]

/-- The invariant survives the calls that helpers may make. -/
theorem CacheInvariant.step
    {pasts : ι -> List HelperEvent}
    {world after : CacheWorld}
    (invariant : CacheInvariant marker expiresAtMs pasts world)
    {thread : ι}
    {event : HelperEvent}
    (step : MarkerStep marker expiresAtMs (pasts thread) world event after) :
    CacheInvariant marker expiresAtMs
      (Function.update pasts thread (pasts thread ++ [event])) after := by
  cases step with
  | @create directory file after absent present empty =>
      have noneOpened (other : ι) (found : File) : ¬Opened marker found (pasts other) :=
        fun opened => by simp [invariant.opened other found opened] at absent
      have noneCreated (other : ι) (found : File) : ¬Created marker found (pasts other) :=
        fun created => by simp [(invariant.created other found created).1] at absent
      have onlyNew (found : File) : Created marker found
          [(⟨.createat directory marker, .created file⟩ : HelperEvent)] ↔ found = file := by
        simp [Created]
      refine ⟨?_, ?_, ?_, ?_, ?_⟩
      · intro found atMarker
        rw [present] at atMarker
        obtain rfl := Option.some.inj atMarker
        exact ⟨0, empty⟩
      · intro other found opened
        rw [opened_update] at opened
        rcases opened with old | ⟨_, new⟩
        · exact absurd old (noneOpened other found)
        · simp [Opened] at new
      · intro other found created
        rw [created_update, onlyNew] at created
        rcases created with old | ⟨rfl, rfl⟩
        · exact absurd old (noneCreated other found)
        · refine ⟨present, ?_⟩
          rw [empty, writes_update, invariant.unwritten other (noneCreated other)]
          simp [isWrite]
      · intro left right leftFile rightFile leftCreated rightCreated
        rw [created_update] at leftCreated rightCreated
        rcases leftCreated with old | ⟨rfl, _⟩
        · exact absurd old (noneCreated left leftFile)
        · rcases rightCreated with old | ⟨rfl, _⟩
          · exact absurd old (noneCreated right rightFile)
          · rfl
      · intro other nothing
        rw [writes_update, invariant.unwritten other (noneCreated other)]
        simp [isWrite]
  | @write file bytes count after created turn sameEntries newContents =>
      obtain ⟨present, contents⟩ := invariant.created thread file created
      have appended : after.contents file =
          ((markerPieces expiresAtMs).take (writes (pasts thread) + 1)).flatMap utf8 := by
        rw [newContents, Function.update_self, contents, take_pieces_succ turn]
      have noOpen (found : File) : ¬Opened marker found
          [(⟨.write file bytes, .ok count⟩ : HelperEvent)] := by
        simp [Opened]
      have noCreate (found : File) : ¬Created marker found
          [(⟨.write file bytes, .ok count⟩ : HelperEvent)] := by
        simp [Created]
      refine ⟨?_, ?_, ?_, ?_, ?_⟩
      · intro found atMarker
        rw [sameEntries, present] at atMarker
        obtain rfl := Option.some.inj atMarker
        exact ⟨_, appended⟩
      · intro other found opened
        rw [opened_update] at opened
        rw [sameEntries]
        exact invariant.opened other found (opened.resolve_right fun new => noOpen found new.2)
      · intro other found otherCreated
        rw [created_update] at otherCreated
        have old := otherCreated.resolve_right fun new => noCreate found new.2
        obtain rfl := invariant.unique other thread found file old created
        obtain ⟨otherPresent, _⟩ := invariant.created other found old
        obtain rfl := Option.some.inj (otherPresent.symm.trans present)
        refine ⟨by rw [sameEntries, present], ?_⟩
        rw [appended, writes_update]
        simp [isWrite]
      · intro left right leftFile rightFile leftCreated rightCreated
        rw [created_update] at leftCreated rightCreated
        exact invariant.unique left right leftFile rightFile
          (leftCreated.resolve_right fun new => noCreate leftFile new.2)
          (rightCreated.resolve_right fun new => noCreate rightFile new.2)
      · intro other nothing
        rcases eq_or_ne other thread with rfl | different
        · exact absurd (created_update.mpr (.inl created)) (nothing file)
        · rw [writes_update, invariant.unwritten other fun found old =>
            nothing found (created_update.mpr (.inl old))]
          simp [different]
  | other sameEntry sameContents noWrite noCreate openedNow =>
      refine ⟨?_, ?_, ?_, ?_, ?_⟩
      · intro found atMarker
        rw [sameEntry] at atMarker
        rw [sameContents]
        exact invariant.text found atMarker
      · intro other found opened
        rw [opened_update] at opened
        rw [sameEntry]
        rcases opened with old | ⟨_, new⟩
        · exact invariant.opened other found old
        · exact openedNow found new
      · intro other found created
        rw [created_update] at created
        have old := created.resolve_right fun new => noCreate found new.2
        rw [sameEntry, sameContents, writes_update, noWrite]
        simpa using invariant.created other found old
      · intro left right leftFile rightFile leftCreated rightCreated
        rw [created_update] at leftCreated rightCreated
        exact invariant.unique left right leftFile rightFile
          (leftCreated.resolve_right fun new => noCreate leftFile new.2)
          (rightCreated.resolve_right fun new => noCreate rightFile new.2)
      · intro other nothing
        rw [writes_update, noWrite, invariant.unwritten other fun found old =>
          nothing found (created_update.mpr (.inl old))]
        simp

omit [DecidableEq ι] in
/-- What a helper relies on holds in the shared directory. -/
theorem relies_of_serves
    {pasts : ι -> List HelperEvent}
    {world after : CacheWorld}
    (invariant : CacheInvariant marker expiresAtMs pasts world)
    {thread : ι}
    {request : Call}
    {answer : request.Answer}
    (served : world.Serves request answer after)
    (early : ∀ now ∈ (wallReadings (pasts thread ++ [⟨request, answer⟩])).tail,
      now ≤ expiresAtMs) :
    (markerContract marker expiresAtMs).relies (pasts thread) ⟨request, answer⟩ := by
  unfold CacheWorld.Serves at served
  split at served
  · rename_i now
    intro nonempty
    refine early now ?_
    obtain ⟨first, rest, split⟩ := List.exists_cons_of_ne_nil nonempty
    have newest : wallReadings [⟨.wallClock, some now⟩] = [now] := rfl
    rw [wallReadings_append, split, newest]
    simp
  · trivial
  · intro opened
    exact ⟨_, invariant.text _ (invariant.opened thread _ opened), served.1⟩
  · trivial
  · trivial
  · exact served.1
  · trivial
  · rename_i noClock noOpen noRead noCreate noExists noWrite noUnlink
    unfold markerContract
    dsimp only
    split
    · rename_i clock
      cases clock
      exact (noClock _ rfl HEq.rfl).elim
    · rename_i read
      cases read
      exact (noRead _ _ _ _ rfl HEq.rfl).elim
    · rename_i written
      cases written
      exact (noWrite _ _ _ rfl HEq.rfl).elim
    · trivial

end ManyHelpers

/-! ## The replay cache as a whole -/

/-- What may differ between helpers that are shown the same response. -/
structure Screening where
  rounds : Nat
  deadline : Nat
  allowedFutureSkewMs : UInt64

/-- Helpers that screen one response to one request with a shared replay cache. -/
def screeners
    {ι : Type}
    (digest : Bytes -> Bytes)
    (request : SignedAuthRequest)
    (response : SignedAuthResponse)
    (directory : File)
    (settings : ι -> Screening) :
    Pool (fun _ : ι => Call) (fun _ => Call.Answer) (fun _ => Stop) (fun _ => Unit) :=
  fun thread => screenResponse digest (settings thread).rounds (settings thread).deadline
    request (settings thread).allowedFutureSkewMs (some directory) response

/-- The directory holds a marker of the response only as helpers write it. -/
def MarkedBy (digest : Bytes -> Bytes) (response : SignedAuthResponse)
    (world : CacheWorld) : Prop :=
  ∀ file, world.entries (hexEncode (digest response.signature)) = some file ->
    MarkerText response.body.expiresAtMs (world.contents file)

/-- No helper cleans up with a clock that is past the expiry. The first reading of a
helper is for its freshness check, the second for its cleanup. -/
def CleansUpInTime
    {ι : Type}
    [DecidableEq ι]
    (response : SignedAuthResponse)
    (history : List (Entry (fun _ : ι => Call) fun _ => Call.Answer)) : Prop :=
  ∀ thread, ∀ now ∈ (wallReadings (traceOf thread history)).tail,
    now ≤ response.body.expiresAtMs

section SharedCache

variable {ι : Type} [DecidableEq ι]

theorem cleansUpInTime_of_all
    {response : SignedAuthResponse}
    {history : List (Entry (fun _ : ι => Call) fun _ => Call.Answer)}
    (all : ∀ thread, ((wallReadings (traceOf thread history)).tail.all fun now =>
      now ≤ response.body.expiresAtMs) = true) :
    CleansUpInTime response history := by
  intro thread now member
  simpa using List.all_eq_true.mp (all thread) now member

variable {digest : Bytes -> Bytes} {request : SignedAuthRequest}
variable {response : SignedAuthResponse} {directory : File} {settings : ι -> Screening}
variable {start world : CacheWorld}
variable {history : List (Entry (fun _ : ι => Call) fun _ => Call.Answer)}
variable {pool : Pool (fun _ : ι => Call) (fun _ => Call.Answer) (fun _ => Stop)
  (fun _ => Unit)}

/-- The condition on the clock was met all along. -/
theorem CleansUpInTime.earlier
    {entry : Entry (fun _ : ι => Call) fun _ => Call.Answer}
    (inTime : CleansUpInTime response (history ++ [entry])) :
    CleansUpInTime response history := by
  intro thread now member
  refine inTime thread now ?_
  rw [traceOf_append, wallReadings_append]
  cases readings : wallReadings (traceOf thread history) with
  | nil => simp [readings] at member
  | cons first rest =>
      rw [readings, List.tail_cons] at member
      simp [member]

/-- In a run that cleans up in time, the invariant holds and every helper can rely on
its contract. -/
theorem cacheInvariant_of_run
    (run : (cacheSystem ι).Run (screeners digest request response directory settings) start
      history pool world)
    (marked : MarkedBy digest response start)
    (inTime : CleansUpInTime response history) :
    CacheInvariant (hexEncode (digest response.signature)) response.body.expiresAtMs
        (fun thread => traceOf thread history) world ∧
      ∀ thread before event after, traceOf thread history = before ++ event :: after ->
        (markerContract (hexEncode (digest response.signature))
          response.body.expiresAtMs).relies before event := by
  induction run with
  | start => exact ⟨⟨marked, by simp [Opened], by simp [Created], by simp [Created], by simp⟩,
      by simp⟩
  | @step history pool before after thread request next answer stepped current served
      inductionHypothesis =>
      obtain ⟨invariant, relied⟩ := inductionHypothesis inTime.earlier
      have meets := ((meets_screenResponse _ _ _ _ _ _ _).steps (stepped.steps thread)
        (by simpa using relied thread)).2
      rw [current, List.nil_append] at meets
      have answered := relies_of_serves invariant served (by simpa using inTime thread)
      refine ⟨?_, ?_⟩
      · rw [traceOf_snoc]
        exact invariant.step (markerStep_of_serves meets.1 served)
      · intro other front event back split
        rcases eq_or_ne other thread with rfl | different
        · rw [traceOf_append, traceOf_own] at split
          rcases List.eq_nil_or_concat back with rfl | ⟨middle, last, rfl⟩
          · obtain ⟨rfl, single⟩ := List.append_inj' split rfl
            obtain rfl := (List.cons.inj single).1
            exact answered
          · rw [List.concat_eq_append, ← List.cons_append, ← List.append_assoc] at split
            exact relied other front event middle (List.append_inj' split rfl).1
        · rw [traceOf_append, traceOf_other (Ne.symm different), List.append_nil] at split
          exact relied other front event back split
  | drift _ changed inductionHypothesis =>
      obtain ⟨invariant, relied⟩ := inductionHypothesis inTime
      refine ⟨?_, relied⟩
      rw [changed.2]
      exact ⟨invariant.text, invariant.opened, invariant.created, invariant.unique,
        invariant.unwritten⟩

/-- In a run that cleans up in time, a helper whose response passed has created the
marker. -/
theorem created_of_passed
    (run : (cacheSystem ι).Run (screeners digest request response directory settings) start
      history pool world)
    (marked : MarkedBy digest response start)
    (inTime : CleansUpInTime response history)
    {thread : ι}
    (passed : pool thread = .done (.ok ())) :
    ∃ file, Created (hexEncode (digest response.signature)) file (traceOf thread history) := by
  have relied := (cacheInvariant_of_run run marked inTime).2 thread
  have meets := ((meets_screenResponse _ _ _ _ _ _ _).steps (run.steps thread)
    (by simpa using relied)).2
  rw [passed, List.nil_append] at meets
  exact meets rfl

end SharedCache

/-- Of all helpers that share a replay cache, at most one gets past the freshness check
and the replay cache with the same response, in every run in which no helper cleans up
with a clock past the expiry of the response. The writes are complete or fail, and what
there is of a marker of the response at the start has been written by a helper. -/
theorem response_passes_at_most_once
    {ι : Type}
    [DecidableEq ι]
    (digest : Bytes -> Bytes)
    (request : SignedAuthRequest)
    (response : SignedAuthResponse)
    (directory : File)
    (settings : ι -> Screening)
    (start world : CacheWorld)
    (history : List (Entry (fun _ : ι => Call) fun _ => Call.Answer))
    (pool : Pool (fun _ : ι => Call) (fun _ => Call.Answer) (fun _ => Stop) (fun _ => Unit))
    (run : (cacheSystem ι).Run (screeners digest request response directory settings) start
      history pool world)
    (marked : MarkedBy digest response start)
    (inTime : CleansUpInTime response history)
    (left right : ι)
    (leftPassed : pool left = .done (.ok ()))
    (rightPassed : pool right = .done (.ok ())) :
    left = right := by
  obtain ⟨leftFile, leftCreated⟩ := created_of_passed run marked inTime leftPassed
  obtain ⟨rightFile, rightCreated⟩ := created_of_passed run marked inTime rightPassed
  exact (cacheInvariant_of_run run marked inTime).1.unique left right leftFile rightFile
    leftCreated rightCreated

/-! ## Two helpers at the last moment of a response -/

namespace SampleReplay

/-- The digest of 64 zero bytes. -/
def signatureHash : Bytes :=
  [0xf5, 0xa5, 0xfd, 0x42, 0xd1, 0x6a, 0x20, 0x30, 0x27, 0x98, 0xef, 0x6e, 0xd3, 0x09, 0x97,
    0x9b, 0x43, 0x00, 0x3d, 0x23, 0x20, 0xd9, 0xf0, 0xe8, 0xea, 0x98, 0x31, 0xa9, 0x27, 0x59,
    0xfb, 0x4b]

def request : SignedAuthRequest where
  body := {
    protocolVersion := 1
    requestId := "req-1000-1"
    nonce := List.replicate 32 7
    createdAtMs := 1000
    expiresAtMs := 16000
    linuxHostId := "web"
    linuxHostname := "web"
    pamService := "sudo"
    pamUser := "alice"
    pamRuser := none
    pamRhost := none
    pamTty := none
    sudoCommand := none
    clientPid := some 1
    keyId := "host-key-1"
    alg := .ed25519
  }
  signature := List.replicate 64 1

def response : SignedAuthResponse where
  body := {
    protocolVersion := 1
    requestId := "req-1000-1"
    nonce := List.replicate 32 7
    requestHash := List.replicate 32 9
    linuxHostId := "web"
    pamService := "sudo"
    pamUser := "alice"
    decision := .approved
    authMethod := .touchId
    createdAtMs := 2000
    expiresAtMs := 12000
    agentKeyId := "agent-key-1"
    alg := .ed25519
    errorCode := none
    errorMessage := none
  }
  signature := List.replicate 64 0

def marker : Bytes := hexEncode signatureHash

/-- Two helpers with the default skew and the deadline ahead. -/
def settings : Bool -> Screening :=
  fun _ => { rounds := 3, deadline := 1000, allowedFutureSkewMs := 30000 }

/-- Two helpers that are shown the response. -/
def helpers : Pool (fun _ : Bool => Call) (fun _ => Call.Answer) (fun _ => Stop)
    (fun _ => Unit) :=
  screeners (fun _ => signatureHash) request response 9 settings

/-- An empty cache directory at the last moment of the response. -/
def start : CacheWorld where
  clock := 12000
  entries _ := none
  contents _ := []
  next := 0

/-- The freshness check of a helper. -/
def checks : List HelperEvent :=
  [⟨.wallClock, some 12000⟩, ⟨.instant, (0 : Nat)⟩]

/-- The rest of a helper that finds no further entry and creates the file. -/
def records (file : File) : List HelperEvent :=
  [⟨.readdir 9, none⟩, ⟨.createat 9 marker, .created file⟩,
    ⟨.write file (utf8 "expires_at_ms="), .ok 14⟩, ⟨.write file (utf8 "12000"), .ok 5⟩,
    ⟨.write file (utf8 "\n"), .ok 1⟩]

/-- The steps of a helper that cleans up in time. -/
def punctual : List HelperEvent :=
  checks ++ [⟨.wallClock, some 12000⟩, ⟨.opendir 9, .ok ()⟩] ++ records 0

/-- How a helper finds the marker of the other one in the directory and reads it. -/
def finds : List HelperEvent :=
  [⟨.opendir 9, .ok ()⟩, ⟨.readdir 9, some marker⟩,
    ⟨.openat 9 marker false, .ok 0⟩, ⟨.fstat 0, .ok ⟨false, true, 0, 0x180⟩⟩,
    ⟨.read 0 0 128, .ok ⟨utf8 "expires_at_ms=12000\n", by decide⟩⟩,
    ⟨.read 0 20 108, .ok ⟨[], by decide⟩⟩]

/-- The steps of a helper that cleans up in time as well and is stopped by the marker. -/
def stopped : List HelperEvent :=
  checks ++ [⟨.wallClock, some 12000⟩] ++ finds ++
    [⟨.readdir 9, none⟩, ⟨.createat 9 marker, .alreadyExists⟩]

/-- The steps, after the freshness check, of a helper that cleans up a millisecond
later. -/
def late : List HelperEvent :=
  [⟨.wallClock, some 12001⟩] ++ finds ++ [⟨.unlinkat 9 marker, ()⟩] ++ records 1

theorem ends_punctual : Ends (helpers false) punctual (.ok ()) :=
  .call (.call (.call (.call (.call (.call (.call (.call (.call (.refl _)))))))))

theorem ends_stopped : Ends (helpers true) stopped (.error (.exit exitTamper)) :=
  .call (.call (.call (.call (.call (.call (.call (.call (.call (.call (.call (.refl _)))))))))))

theorem ends_late : Ends (helpers true) (checks ++ late) (.ok ()) :=
  .call (.call (.call (.call (.call (.call (.call (.call (.call (.call (.call (.call (.call
    (.call (.call (.refl _)))))))))))))))

theorem serves_punctual :
    ∃ world, (cacheSystem Bool).ServesAll false start punctual world ∧
      world.clock = 12000 ∧ world.entries = Function.update start.entries marker (some 0) ∧
      world.contents 0 = utf8 "expires_at_ms=12000\n" ∧ world.next = 1 :=
  ⟨_, .cons ⟨rfl, rfl⟩ (.cons rfl (.cons ⟨rfl, rfl⟩ (.cons rfl (.cons rfl
    (.cons ⟨rfl, rfl, rfl⟩ (.cons ⟨rfl, rfl⟩ (.cons ⟨rfl, rfl⟩ (.cons ⟨rfl, rfl⟩
      (.nil _))))))))), rfl, rfl, by decide, rfl⟩

end SampleReplay

open SampleReplay in
/-- One helper finds the response fresh at its last moment. Before it cleans up, another
helper passes and leaves its marker. The clock moves on by a millisecond, the first
helper takes the marker for an expired one, removes it and passes as well. -/
theorem response_passes_twice :
    ∃ history pool world, (cacheSystem Bool).Run helpers start history pool world ∧
      MarkedBy (fun _ => signatureHash) response start ∧
      pool false = .done (.ok ()) ∧ pool true = .done (.ok ()) := by
  obtain ⟨middle, checked, remaining⟩ := steps_append.mp ends_late
  obtain ⟨world, served, clock, entries, contents, next⟩ := serves_punctual
  have begun : (cacheSystem Bool).Run helpers start [] helpers start := .start
  have first := begun.alone checked (.cons ⟨rfl, rfl⟩ (.cons rfl (.nil _)))
  have punctualSteps : Steps (Function.update helpers true middle false) punctual
      (.done (.ok ())) :=
    ends_punctual
  have second := first.alone punctualSteps served
  have ticks : (cacheSystem Bool).drifts world { world with clock := 12001 } :=
    ⟨by simp [clock], rfl⟩
  have third := second.drift ticks
  have lateSteps : Steps (Function.update (Function.update helpers true middle) false
      (.done (.ok ())) true) late (.done (.ok ())) := by
    simpa using remaining
  have fourth := third.alone lateSteps (.cons ⟨rfl, rfl⟩ (.cons rfl (.cons rfl
    (.cons ⟨by rw [entries]; rfl, rfl⟩ (.cons rfl (.cons ⟨by rw [contents]; decide, rfl⟩
      (.cons ⟨by rw [contents]; decide, rfl⟩ (.cons rfl (.cons rfl
        (.cons ⟨by simp, next.symm, rfl⟩ (.cons ⟨rfl, rfl⟩ (.cons ⟨rfl, rfl⟩
          (.cons ⟨rfl, rfl⟩ (.nil _))))))))))))))
  exact ⟨_, _, _, fourth, by rintro _ ⟨⟩, by simp, by simp⟩

open SampleReplay in
/-- Two helpers clean up in time. The one that is first passes, and its marker stops the
other one. -/
theorem punctual_passes_alone :
    ∃ history pool world, (cacheSystem Bool).Run helpers start history pool world ∧
      pool true = .done (.error (.exit exitTamper)) ∧
      ∀ thread, pool thread = .done (.ok ()) -> thread = false := by
  obtain ⟨world, served, clock, entries, contents, _⟩ := serves_punctual
  have begun : (cacheSystem Bool).Run helpers start [] helpers start := .start
  have first := begun.alone ends_punctual served
  have stoppedSteps : Steps (Function.update helpers false (.done (.ok ())) true) stopped
      (.done (.error (.exit exitTamper))) :=
    ends_stopped
  have second := first.alone stoppedSteps (.cons ⟨by rw [clock]; rfl, rfl⟩ (.cons rfl
    (.cons ⟨by rw [clock]; rfl, rfl⟩ (.cons rfl (.cons rfl
      (.cons ⟨by rw [entries]; rfl, rfl⟩ (.cons rfl (.cons ⟨by rw [contents]; decide, rfl⟩
        (.cons ⟨by rw [contents]; decide, rfl⟩ (.cons rfl
          (.cons ⟨by rw [entries]; exact nofun, rfl⟩ (.nil _))))))))))))
  have inTime : CleansUpInTime response ([] ++ punctual.map (Entry.mk false) ++
      stopped.map (Entry.mk true)) := by
    apply cleansUpInTime_of_all
    intro thread
    cases thread <;> rfl
  refine ⟨_, _, _, second, by simp, fun thread passed => ?_⟩
  exact response_passes_at_most_once _ _ _ _ _ _ _ _ _ second (by rintro _ ⟨⟩) inTime thread
    false passed (by simp)

end Helper
end MacosAuth
