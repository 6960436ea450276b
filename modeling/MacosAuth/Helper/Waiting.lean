import MacosAuth.Helper.Request

/-!
# How long the helper waits

Every loop of the helper that waits for something else reads the monotonic clock before
it goes on, or an entry of the cache directory. This module shows that a timeout is
reported only after the clock was read at or past the deadline, that a loop of the model
gives up only after as many rounds as it was given, and that a frame is returned only
when all of its bytes have arrived.
-/

namespace MacosAuth
namespace Helper

open Codec
open Protocol (utf8 ProtocolError AuthRequestBody AuthResponseBody SignedAuthRequest
  SignedAuthResponse Decision)
open Effect Effect.Program

/-! ## Loops that wait for the agent -/

/-- The clock was read at or after the deadline. -/
def Expired (deadline : Nat) (past : List HelperEvent) : Prop :=
  ∃ now, (⟨.instant, now⟩ : HelperEvent) ∈ past ∧ deadline ≤ now

/-- Readings of the clock before the deadline, and directory entries read. -/
def isRound (deadline : Nat) : HelperEvent -> Bool
  | ⟨.instant, now⟩ => decide ((now : Nat) < deadline)
  | ⟨.readdir _, some _⟩ => true
  | _ => false

/-- How many rounds of waiting or listing a helper has made. -/
def roundsIn (deadline : Nat) (past : List HelperEvent) : Nat :=
  past.countP (isRound deadline)

/-- The helper signs the canonical bytes of requests and nothing else. -/
def SignsRequests : Call -> Prop
  | .sign _ message => ∃ body : AuthRequestBody, body.canonicalBytes = .ok message
  | _ => True

/-- Any answers are fine, only requests are signed, and a loop gives up only after it has
read that often the clock before the deadline or an entry of the cache directory. -/
def patience (rounds deadline : Nat) : Contract Call Call.Answer where
  relies _ _ := True
  allows _ request := SignsRequests request
  givesUp past := rounds ≤ roundsIn deadline past

section Waiting

variable {rounds deadline : Nat} {past : List HelperEvent}

theorem Expired.mono
    {first second : List HelperEvent}
    (expired : Expired deadline first)
    (extended : first <+: second) :
    Expired deadline second := by
  obtain ⟨now, member, late⟩ := expired
  exact ⟨now, extended.subset member, late⟩

/-- Rounds are never taken back. -/
theorem roundsIn_mono
    (deadline : Nat)
    {first second : List HelperEvent}
    (extended : first <+: second) :
    roundsIn deadline first ≤ roundsIn deadline second :=
  extended.sublist.countP_le

theorem roundsIn_instant
    {now : Nat}
    (early : ¬deadline ≤ now) :
    roundsIn deadline (past ++ [⟨.instant, now⟩]) = roundsIn deadline past + 1 := by
  have round : isRound deadline ⟨.instant, now⟩ = true := by
    simpa [isRound] using early
  simp [roundsIn, round]

/-- The clock is read before the deadline, or the deadline has passed. -/
theorem patient_checkDeadline :
    (checkDeadline deadline).Meets (patience rounds deadline) past
      fun later result => (result = .error .timeout -> Expired deadline later) ∧
        (result = .ok () -> roundsIn deadline past < roundsIn deadline later) := by
  unfold checkDeadline
  rw [meets_perform_bind]
  refine ⟨trivial, fun now _ => ?_⟩
  split
  · rename_i late
    exact ⟨fun _ => ⟨now, by simp, late⟩, by rintro ⟨⟩⟩
  · rename_i early
    refine ⟨by rintro ⟨⟩, fun _ => ?_⟩
    rw [roundsIn_instant early]
    exact Nat.lt_succ_self _

theorem patient_wait
    {left : Nat}
    (interest : Interest)
    (enough : rounds ≤ left + roundsIn deadline past) :
    (wait interest deadline left).Meets (patience rounds deadline) past
      fun later result => result = .error .timedOut -> Expired deadline later := by
  induction left generalizing past with
  | zero => simpa [wait, patience] using enough
  | succ left inductionHypothesis =>
      unfold wait
      rw [meets_perform_bind]
      refine ⟨trivial, fun now _ => ?_⟩
      split
      · rename_i late
        exact fun _ => ⟨now, by simp, late⟩
      · rename_i early
        rw [meets_perform_bind]
        refine ⟨trivial, fun polled _ => ?_⟩
        have again : rounds ≤ left + roundsIn deadline (past ++ [⟨.instant, now⟩] ++
            [⟨.poll interest (pollTimeout (deadline - now)), polled⟩]) := by
          have counted := roundsIn_mono deadline (List.prefix_append (past ++
            [⟨.instant, now⟩]) [⟨.poll interest (pollTimeout (deadline - now)), polled⟩])
          rw [roundsIn_instant early] at counted
          omega
        cases polled with
        | ready invalid => cases invalid <;> rintro ⟨⟩
        | timedOut => exact inductionHypothesis again
        | interrupted => exact inductionHypothesis again
        | failed code => rintro ⟨⟩

/-- A transfer whose operation is a single call. -/
theorem patient_transfer
    {α : Type}
    {left : Nat}
    {operation : Routine IoError (Transfer α)}
    (operates : ∀ {past}, operation.Meets (patience rounds deadline) past
      fun _ result => ∃ transferred, result = .ok transferred)
    (interest : Interest)
    (enough : rounds ≤ left + roundsIn deadline past) :
    (transfer interest deadline rounds operation left).Meets (patience rounds deadline) past
      fun later result => result = .error .timedOut -> Expired deadline later := by
  induction left generalizing past with
  | zero => simpa [transfer, patience] using enough
  | succ left inductionHypothesis =>
      unfold transfer
      rw [meets_perform_bind]
      refine ⟨trivial, fun now _ => ?_⟩
      split
      · rename_i late
        exact fun _ => ⟨now, by simp, late⟩
      · rename_i early
        have again {later : List HelperEvent}
            (extended : past ++ [⟨.instant, now⟩] <+: later) :
            rounds ≤ left + roundsIn deadline later := by
          have counted := roundsIn_mono deadline extended
          rw [roundsIn_instant early] at counted
          omega
        refine Meets.bind operates.extends ?_ ?_
        · rintro afterOperation result ⟨extended, _⟩
          cases result with
          | transferred value => rintro ⟨⟩
          | interrupted => exact inductionHypothesis (again extended)
          | wouldBlock =>
              refine Meets.bind (patient_wait interest (Nat.le_add_right _ _)).extends ?_ ?_
              · rintro afterWait _ ⟨extendedAgain, _⟩
                exact inductionHypothesis (again (extended.trans extendedAgain))
              · rintro afterWait error ⟨_, expired⟩ failed
                cases error <;> first | exact expired rfl | cases failed
          | failed code => rintro ⟨⟩
        · rintro later error ⟨_, ⟨_, ⟨⟩⟩⟩

/-- The condition under which a stream operation reports a timeout. -/
def TimesOutLate (deadline : Nat) {α : Type} (later : List HelperEvent)
    (result : Except IoError α) : Prop :=
  result = .error .timedOut -> Expired deadline later

theorem patient_readStream (limit : Nat) :
    (readStream deadline rounds limit).Meets (patience rounds deadline) past
      (TimesOutLate deadline) := by
  refine patient_transfer ?_ .input (Nat.le_add_right _ _)
  intro past
  exact ⟨trivial, fun answer _ => ⟨answer, rfl⟩⟩

theorem patient_writeStream (bytes : Bytes) :
    (writeStream deadline rounds bytes).Meets (patience rounds deadline) past
      (TimesOutLate deadline) := by
  refine patient_transfer ?_ .output (Nat.le_add_right _ _)
  intro past
  exact ⟨trivial, fun answer _ => ⟨answer, rfl⟩⟩

theorem TimesOutLate.rethrow
    {α β : Type}
    {later : List HelperEvent}
    {error : IoError}
    (late : TimesOutLate deadline later (.error error : Except IoError α)) :
    TimesOutLate deadline later (.error error : Except IoError β) := by
  intro failed
  exact late (by rw [Except.error.inj failed])

theorem patient_readExact (left missing : Nat) :
    (readExact deadline rounds left missing).Meets (patience rounds deadline) past
      (TimesOutLate deadline) := by
  induction left generalizing past missing with
  | zero => rintro ⟨⟩
  | succ left inductionHypothesis =>
      unfold readExact
      split
      · rintro ⟨⟩
      · refine Meets.bind (patient_readStream missing) ?_ fun _ _ late => late.rethrow
        intro later chunk _
        split
        · rintro ⟨⟩
        · refine Meets.bind (inductionHypothesis _) ?_ fun _ _ late => late.rethrow
          intro final rest _
          rintro ⟨⟩

theorem patient_writeAll (left : Nat) (bytes : Bytes) :
    (writeAll (writeStream deadline rounds) left bytes).Meets (patience rounds deadline) past
      (TimesOutLate deadline) := by
  induction left generalizing past bytes with
  | zero => rintro ⟨⟩
  | succ left inductionHypothesis =>
      unfold writeAll
      split
      · rintro ⟨⟩
      · refine Meets.bind (patient_writeStream bytes) ?_ fun _ _ late => late.rethrow
        intro later count _
        split
        · rintro ⟨⟩
        · exact inductionHypothesis _

theorem TimesOutLate.ofIo
    {α β : Type}
    {later : List HelperEvent}
    {error : IoError}
    (late : TimesOutLate deadline later (.error error : Except IoError α))
    (timedOut : (.error (.ofIo error) : Except TransportError β) = .error .timeout) :
    Expired deadline later := by
  cases error <;> first | exact late rfl | cases timedOut

theorem patient_writeFrame (payload : Bytes) :
    (writeFrame deadline rounds payload).Meets (patience rounds deadline) past
      fun later result => result = .error .timeout -> Expired deadline later := by
  unfold writeFrame
  split
  · rintro ⟨⟩
  · refine Meets.mapError_bind (patient_writeAll _ _) ?_ fun _ _ late => late.ofIo
    intro later _ _
    rw [meets_mapError]
    refine (patient_writeAll _ _).mono fun final result late => ?_
    cases result with
    | ok _ => rintro ⟨⟩
    | error error => exact late.ofIo

theorem patient_readFrame :
    (readFrame deadline rounds).Meets (patience rounds deadline) past
      fun later result => result = .error .timeout -> Expired deadline later := by
  refine Meets.mapError_bind (patient_readExact _ _) ?_ fun _ _ late => late.ofIo
  intro later lenBytes _
  dsimp only
  split
  · rintro ⟨⟩
  · rw [meets_mapError]
    refine (patient_readExact _ _).mono fun final result late => ?_
    cases result with
    | ok _ => rintro ⟨⟩
    | error error => exact late.ofIo

theorem patient_readResponse (crates : Crates) :
    (readResponse crates deadline rounds).Meets (patience rounds deadline) past
      fun later result => result = .error .timeout -> Expired deadline later := by
  refine Meets.bind patient_readFrame ?_ ?_
  · intro later payload _
    split
    · rintro ⟨⟩
    · rintro ⟨⟩
  · rintro later error late ⟨⟩
    exact late rfl

/-- Connecting reads the clock in every round. -/
theorem patient_connectLoop
    {left : Nat}
    (path : Bytes)
    (enough : rounds ≤ left + roundsIn deadline past) :
    (connectLoop path deadline rounds left).Meets (patience rounds deadline) past
      fun _ _ => True := by
  induction left generalizing past with
  | zero => simpa [connectLoop, patience] using enough
  | succ left inductionHypothesis =>
      refine Meets.bind patient_checkDeadline ?_ fun _ _ _ => trivial
      rintro checked _ ⟨_, read⟩
      have again {later : List HelperEvent} (extended : checked <+: later) :
          rounds ≤ left + roundsIn deadline later := by
        have counted := roundsIn_mono deadline extended
        have more := read rfl
        omega
      rw [meets_perform_bind]
      refine ⟨trivial, fun answer _ => ?_⟩
      cases answer with
      | connected => trivial
      | alreadyConnected => trivial
      | interrupted => exact inductionHypothesis (again (List.prefix_append _ _))
      | inProgress =>
          refine Meets.mapError_bind (patient_wait _ (Nat.le_add_right _ _)) ?_
            fun _ _ _ => trivial
          intro later _ _
          refine ⟨trivial, fun pending _ => ?_⟩
          rcases pending with _ | _ | _ <;> trivial
      | wouldBlock =>
          refine ⟨trivial, fun now _ => ⟨trivial, fun _ _ => ?_⟩⟩
          refine inductionHypothesis (again ?_)
          simp only [List.append_assoc]
          exact List.prefix_append _ _
      | failed code => trivial

theorem patient_orOsError
    {ε : Type}
    (answer : Except Nat Unit)
    (translate : IoError -> ε) :
    ((orOsError answer).mapError translate).Meets (patience rounds deadline) past
      fun _ _ => True := by
  cases answer <;> trivial

theorem patient_connectStream (path : Bytes) :
    (connectStream path deadline rounds).Meets (patience rounds deadline) past
      fun _ _ => True := by
  refine Meets.bind patient_checkDeadline ?_ fun _ _ _ => trivial
  intro checked _ _
  split
  · trivial
  · rw [meets_perform_bind]
    refine ⟨trivial, fun created _ => Meets.bind (patient_orOsError _ _) ?_ fun _ _ _ => trivial⟩
    intro _ _ _
    rw [meets_perform_bind]
    refine ⟨trivial, fun marked _ => Meets.bind (patient_orOsError _ _) ?_ fun _ _ _ => trivial⟩
    intro _ _ _
    rw [meets_perform_bind]
    refine ⟨trivial, fun nonblocking _ => Meets.bind (patient_orOsError _ _) ?_
      fun _ _ _ => trivial⟩
    intro _ _ _
    refine Meets.bind (patient_connectLoop path (Nat.le_add_right _ _)) ?_ fun _ _ _ => trivial
    intro _ _ _
    exact patient_checkDeadline.mono fun _ _ _ => trivial

end Waiting

/-! ## Complete frames -/

/-- The bytes that arrived from the agent. -/
def received (past : List HelperEvent) : Bytes :=
  past.flatMap fun
    | ⟨.recv _, .transferred chunk⟩ => chunk.val
    | _ => []

/-- A contract without any condition. -/
def anything : Contract Call Call.Answer where
  relies _ _ := True
  allows _ _ := True
  givesUp _ := True

section Frames

variable {rounds deadline : Nat} {past : List HelperEvent}

@[simp] theorem received_append (first second : List HelperEvent) :
    received (first ++ second) = received first ++ received second := by
  simp [received]

theorem received_wait {left : Nat} (interest : Interest) :
    (wait interest deadline left).Meets anything past
      fun later _ => received later = received past := by
  induction left generalizing past with
  | zero => trivial
  | succ left inductionHypothesis =>
      unfold wait
      rw [meets_perform_bind]
      refine ⟨trivial, fun now _ => ?_⟩
      split
      · simp [received]
      · rw [meets_perform_bind]
        refine ⟨trivial, fun polled _ => ?_⟩
        have unchanged : received (past ++ [⟨.instant, now⟩] ++
            [⟨.poll interest (pollTimeout (deadline - now)), polled⟩]) = received past := by
          simp [received]
        cases polled with
        | ready invalid => cases invalid <;> exact unchanged
        | timedOut =>
            exact inductionHypothesis.mono fun later _ same => same.trans unchanged
        | interrupted =>
            exact inductionHypothesis.mono fun later _ same => same.trans unchanged
        | failed code => exact unchanged

theorem received_readStream {left limit : Nat} :
    (transfer .input deadline rounds (perform (Call.recv limit)) left).Meets anything past
      fun later result => ∀ chunk, result = .ok chunk ->
        received later = received past ++ chunk.val := by
  induction left generalizing past with
  | zero => trivial
  | succ left inductionHypothesis =>
      unfold transfer
      rw [meets_perform_bind]
      refine ⟨trivial, fun now _ => ?_⟩
      split
      · rintro chunk ⟨⟩
      · rw [meets_perform_bind]
        refine ⟨trivial, fun transferred _ => ?_⟩
        have again {later : List HelperEvent} (same : received later = received past) :
            (transfer .input deadline rounds (perform (Call.recv limit)) left).Meets anything
              later fun final result => ∀ chunk, result = .ok chunk ->
                received final = received past ++ chunk.val :=
          inductionHypothesis.mono fun final result read chunk ok => same ▸ read chunk ok
        cases transferred with
        | transferred value =>
            rintro chunk ⟨⟩
            simp [received]
        | interrupted => exact again (by simp [received])
        | wouldBlock =>
            refine Meets.bind (received_wait .input) ?_ (by rintro _ _ _ _ ⟨⟩)
            intro later _ same
            exact again (same.trans (by simp [received]))
        | failed code => rintro chunk ⟨⟩

/-- `read_exact` returns the bytes that arrived meanwhile, all that were asked for. -/
theorem received_readExact {left missing : Nat} (enough : missing ≤ left) :
    (readExact deadline rounds left missing).Meets anything past
      fun later result => ∀ bytes, result = .ok bytes ->
        received later = received past ++ bytes ∧ bytes.length = missing := by
  induction left generalizing past missing with
  | zero =>
      rintro bytes ⟨⟩
      simpa using (Nat.le_zero.mp enough).symm
  | succ left inductionHypothesis =>
      unfold readExact
      split
      · rename_i none
        rintro bytes ⟨⟩
        simp [none]
      · refine Meets.bind received_readStream ?_ (by rintro _ _ _ _ ⟨⟩)
        intro later chunk read
        have bound := chunk.property
        split
        · rintro bytes ⟨⟩
        · rename_i nonempty
          have progress : 0 < chunk.val.length := List.length_pos_iff.mpr nonempty
          have fewer : missing - chunk.val.length ≤ left := by omega
          refine Meets.bind (inductionHypothesis fewer) ?_ (by rintro _ _ _ _ ⟨⟩)
          rintro final rest readRest _ ⟨⟩
          obtain ⟨received_eq, length_eq⟩ := readRest rest rfl
          refine ⟨?_, ?_⟩
          · rw [received_eq, read chunk rfl, List.append_assoc]
          · rw [List.length_append, length_eq]
            omega

/-- A frame that is returned is the whole of what arrived meanwhile. -/
theorem received_readFrame
    {trace : List HelperEvent}
    {payload : Bytes}
    (ended : Ends (readFrame deadline rounds) trace (.ok payload)) :
    received trace = lengthPrefixed 4 payload ∧ payload.length ≤ maxFrameLen := by
  have meets : (readFrame deadline rounds).Meets anything []
      fun later result => ∀ bytes, result = .ok bytes ->
        received later = lengthPrefixed 4 bytes ∧ bytes.length ≤ maxFrameLen := by
    refine Meets.mapError_bind (received_readExact (Nat.le_refl 4)) ?_
      (by rintro _ _ _ _ ⟨⟩)
    intro later lenBytes read
    obtain ⟨header, width⟩ := read lenBytes rfl
    dsimp only
    split
    · rintro _ ⟨⟩
    · rename_i fits
      rw [meets_mapError]
      refine (received_readExact (Nat.le_refl _)).mono ?_
      rintro final result readBody
      cases result with
      | error error => rintro _ ⟨⟩
      | ok body =>
          rintro _ ⟨⟩
          obtain ⟨whole, length_eq⟩ := readBody body rfl
          have prefix_eq := bigEndian_fromBigEndian lenBytes
          rw [width] at prefix_eq
          refine ⟨?_, by omega⟩
          rw [whole, header, lengthPrefixed, length_eq, prefix_eq]
          rfl
  exact meets.outcome ended (fun _ _ _ _ => trivial) payload rfl

end Frames

/-! ## Parts without waiting -/

/-- Any error will do. -/
abbrev anyError {ε : Type} : ε -> Prop := fun _ => True

theorem settles_orOsError {α : Type} (answer : Except Nat α) :
    (orOsError answer).Settles SignsRequests anyError := by
  cases answer <;> trivial

theorem settles_validate (file : File) (rootOwned directory isPrivate : Bool) :
    (Trust.validate file rootOwned directory isPrivate).Settles SignsRequests anyError :=
  .bind (settles_perform trivial) fun answer =>
    .bind (settles_orOsError answer) fun _ => settles_done fun _ _ => trivial

theorem settles_descend
    (rootOwned directory isPrivate : Bool)
    (file : File)
    (names : List Bytes) :
    (Trust.descend rootOwned directory isPrivate file names).Settles SignsRequests anyError := by
  induction names generalizing file with
  | nil => exact settles_pure _
  | cons component rest inductionHypothesis =>
      exact .bind (settles_perform trivial) fun answer =>
        .bind (settles_orOsError answer) fun child =>
          .bind (settles_validate _ _ _ _) fun _ => inductionHypothesis child

theorem settles_openPath (path : Bytes) (rootOwned directory isPrivate : Bool) :
    (Trust.openPath path rootOwned directory isPrivate).Settles SignsRequests anyError := by
  unfold Trust.openPath
  split
  · exact settles_fail trivial
  · refine .bind ?_ fun absolute =>
      .bind (settles_done fun _ _ => trivial) fun names =>
        .bind (settles_perform trivial) fun answer =>
          .bind (settles_orOsError answer) fun root =>
            .bind (settles_validate _ _ _ _) fun _ =>
              .bind (settles_descend _ _ _ _ _) fun file =>
                .bind (settles_validate _ _ _ _) fun _ => settles_pure _
    unfold Trust.absolutePath
    split
    · exact settles_pure _
    · exact .bind (settles_perform trivial) fun answer =>
        .bind (settles_orOsError answer) fun _ => settles_pure _

theorem settles_readUpTo (file : File) (limit left : Nat) (gathered : Bytes) :
    (readUpTo file limit left gathered).Settles SignsRequests anyError := by
  induction left generalizing gathered with
  | zero => exact settles_pure _
  | succ left inductionHypothesis =>
      unfold readUpTo
      split
      · exact settles_pure _
      · refine .bind (settles_perform trivial) fun answer =>
          .bind (settles_orOsError answer) fun chunk => ?_
        split
        · exact settles_pure _
        · exact inductionHypothesis _

theorem settles_readToString (file : File) (limit : Nat) :
    (readToString file limit).Settles SignsRequests anyError := by
  refine .bind (settles_readUpTo _ _ _ _) fun bytes => ?_
  split <;> trivial

theorem settles_readTrustedFile (path : Bytes) (rootOwned isPrivate : Bool) :
    (readTrustedFile path rootOwned isPrivate).Settles SignsRequests anyError := by
  refine .bind (Settles.mapError (settles_openPath _ _ _ _)) fun file =>
    .bind (Settles.mapError (settles_readToString _ _)) fun contents => ?_
  split <;> trivial

theorem settles_loadHelperConfig (crates : Crates) (path : Option Bytes) (rootOwned : Bool) :
    (loadHelperConfig crates path rootOwned).Settles SignsRequests anyError := by
  cases path with
  | none => exact settles_pure _
  | some path =>
      refine .bind (settles_readTrustedFile _ _ _) fun contents => ?_
      split <;> trivial

theorem settles_readKeyMaterial (path : Bytes) (rootOwned isPrivate : Bool) :
    (readKeyMaterial path rootOwned isPrivate).Settles SignsRequests anyError := by
  refine .bind (settles_readTrustedFile _ _ _) fun contents => ?_
  split <;> trivial

theorem settles_loadSigningKey
    (keyHex : Option String)
    (keyFile : Option Bytes)
    (rootOwned : Bool) :
    (loadSigningKey keyHex keyFile rootOwned).Settles SignsRequests anyError := by
  unfold loadSigningKey
  split
  · split
    · exact settles_fail trivial
    · exact settles_done fun _ _ => trivial
  · exact .bind (settles_readKeyMaterial _ _ _) fun _ => settles_done fun _ _ => trivial
  · exact settles_fail trivial
  · exact settles_fail trivial

theorem settles_loadPublicKey
    (keyHex : Option String)
    (keyFile : Option Bytes)
    (label : String)
    (rootOwned : Bool) :
    (loadPublicKey keyHex keyFile label rootOwned).Settles SignsRequests anyError := by
  unfold loadPublicKey
  split
  · split
    · exact settles_fail trivial
    · exact settles_done fun _ _ => trivial
  · exact .bind (settles_readKeyMaterial _ _ _) fun _ => settles_done fun _ _ => trivial
  · exact settles_fail trivial
  · exact settles_fail trivial

theorem settles_openReplayCache (path : Option Bytes) (rootOwned : Bool) :
    (openReplayCache path rootOwned).Settles SignsRequests anyError := by
  cases path with
  | none => exact settles_pure _
  | some path => exact .bind (settles_openPath _ _ _ _) fun _ => settles_pure _

theorem settles_operationBudget (timeoutMs nowMs : UInt64) :
    (operationBudget timeoutMs nowMs).Settles SignsRequests anyError := by
  unfold operationBudget
  split
  · exact settles_fail trivial
  · split
    · exact settles_fail trivial
    · refine .bind (settles_perform trivial) fun now => ?_
      split <;> trivial

theorem settles_unixTimeMs : unixTimeMs.Settles SignsRequests anyError := by
  refine .bind (settles_perform trivial) fun reading => ?_
  cases reading <;> trivial

theorem settles_signRequest (body : AuthRequestBody) (signingKey : Bytes) :
    (signRequest body signingKey).Settles SignsRequests anyError := by
  unfold signRequest
  split
  · exact settles_fail trivial
  · rename_i bytes encoded
    exact .bind (settles_perform ⟨body, encoded⟩) fun _ => settles_pure _

/-! ## Listing the replay cache -/

section Listing

variable {rounds deadline : Nat} {past : List HelperEvent}

theorem settles_cleanupEntry (directory : File) (now : UInt64) (entry : Bytes) :
    (Trust.cleanupEntry directory now entry).Settles SignsRequests anyError := by
  unfold Trust.cleanupEntry
  split
  · refine .bind (settles_perform trivial) fun opened => ?_
    cases opened with
    | error code => trivial
    | ok file =>
        refine .bind (settles_perform trivial) fun metadata => ?_
        cases metadata with
        | error code => trivial
        | ok metadata =>
            dsimp only
            split
            · refine .bind (settles_readToString _ _).attempt fun contents => ?_
              cases contents with
              | error error => trivial
              | ok contents =>
                  dsimp only
                  split
                  · exact settles_perform trivial
                  · trivial
            · trivial
  · trivial

theorem patient_cleanupLoop
    {left : Nat}
    (directory : File)
    (now : UInt64)
    (enough : rounds ≤ left + roundsIn deadline past) :
    (Trust.cleanupLoop directory now left).Meets (patience rounds deadline) past
      fun _ _ => True := by
  induction left generalizing past with
  | zero => simpa [Trust.cleanupLoop, patience] using enough
  | succ left inductionHypothesis =>
      unfold Trust.cleanupLoop
      rw [meets_perform_bind]
      refine ⟨trivial, fun entry _ => ?_⟩
      cases entry with
      | none => trivial
      | some entry =>
          refine Meets.bind ((settles_cleanupEntry _ _ _).meets fun _ _ => id) ?_
            fun _ _ _ => trivial
          rintro later _ ⟨extended, _⟩
          refine inductionHypothesis ?_
          have counted := roundsIn_mono deadline extended
          simp only [roundsIn, List.countP_append, List.countP_singleton, isRound] at counted
          unfold roundsIn at enough ⊢
          simp only [if_true] at counted
          omega

theorem settles_writeAll_writeFile (file : File) (left : Nat) (bytes : Bytes) :
    (writeAll (writeFile file) left bytes).Settles SignsRequests anyError := by
  induction left generalizing bytes with
  | zero => exact settles_pure _
  | succ left inductionHypothesis =>
      unfold writeAll
      split
      · exact settles_pure _
      · refine .bind (.bind (settles_perform trivial) fun _ => settles_orOsError _) fun count => ?_
        split
        · trivial
        · exact inductionHypothesis _

theorem settles_writePieces (file : File) (pieces : List String) :
    (writePieces file pieces).Settles SignsRequests anyError := by
  induction pieces with
  | nil => exact settles_pure _
  | cons piece rest inductionHypothesis =>
      exact .bind (settles_writeAll_writeFile _ _ _) fun _ => inductionHypothesis

theorem patient_cleanupMarkers (directory : File) (now : UInt64) :
    (Trust.cleanupMarkers directory now rounds).Meets (patience rounds deadline) past
      fun _ _ => True := by
  unfold Trust.cleanupMarkers
  rw [meets_perform_bind]
  refine ⟨trivial, fun opened _ => ?_⟩
  refine Meets.bind ((settles_orOsError _).meets fun _ _ => id) ?_ fun _ _ _ => trivial
  intro _ _ _
  exact patient_cleanupLoop _ _ (Nat.le_add_right _ _)

theorem settles_createMarker (directory : File) (marker : Bytes) :
    (Trust.createMarker directory marker).Settles SignsRequests anyError := by
  refine .bind (settles_done fun _ _ => trivial) fun name => .bind (settles_perform trivial) fun result => ?_
  cases result <;> trivial

theorem patient_recordReplayMarker
    (digest : Bytes -> Bytes)
    (replayCache : File)
    (response : SignedAuthResponse) :
    (recordReplayMarker digest rounds replayCache response).Meets (patience rounds deadline) past
      fun _ _ => True := by
  refine Meets.bind (settles_unixTimeMs.meets fun _ _ => id) ?_ fun _ _ _ => trivial
  intro _ now _
  refine Meets.mapError_bind (patient_cleanupMarkers _ _) ?_ fun _ _ _ => trivial
  intro _ _ _
  refine Meets.attempt_bind ((settles_createMarker _ _).meets fun _ _ => id) ?_
  intro _ created _
  cases created with
  | ok file =>
      rw [meets_mapError]
      exact ((settles_writePieces _ _).meets fun _ _ => id).mono fun _ _ _ => trivial
  | error error => cases error <;> trivial

end Listing

end Helper
end MacosAuth
