import MacosAuth.Codec.Frames
import MacosAuth.Helper.Waiting
import MacosAuth.Agent.Safety

/-!
# Framing on both sides

Both readers and both writers work on a byte stream that the kernel cuts into pieces
as it likes. The environment is described by what a trace may answer: it delivers a
given stream in any pieces, reports the end of the stream only when all of it has been
delivered, interrupts any call, and stays before the deadline.

For every such trace the outcome of a reader is the one that `parseFrame` gives for the
stream, and a writer puts the whole frame on the wire. A reader or writer gives up its
rounds only after as many retries.
-/

namespace MacosAuth
namespace Helper

open Codec Effect Effect.Program

/-! ## The helper's environment -/

/-- The bytes that the peer has been sent. -/
def sent (past : List HelperEvent) : Bytes :=
  past.flatMap fun
    | ⟨.send bytes, .transferred count⟩ => bytes.take count
    | _ => []

/-- An answer after which a call is repeated. -/
def isRetry : HelperEvent -> Bool
  | ⟨.poll _ _, .timedOut⟩ => true
  | ⟨.poll _ _, .interrupted⟩ => true
  | ⟨.recv _, .interrupted⟩ => true
  | ⟨.recv _, .wouldBlock⟩ => true
  | ⟨.send _, .interrupted⟩ => true
  | ⟨.send _, .wouldBlock⟩ => true
  | _ => false

def retries (past : List HelperEvent) : Nat :=
  past.countP isRetry

/-- The call may be answered so while the stream is delivered before the deadline. -/
def Delivers (deadline : Nat) (stream : Bytes) (past : List HelperEvent) :
    HelperEvent -> Prop
  | ⟨.instant, now⟩ => now < deadline
  | ⟨.poll _ _, .ready invalid⟩ => invalid = false
  | ⟨.poll _ _, .failed _⟩ => False
  | ⟨.recv limit, .transferred bytes⟩ =>
      received past ++ bytes.val <+: stream ∧
        (0 < limit -> bytes.val = [] -> received past = stream)
  | ⟨.recv _, .failed _⟩ => False
  | ⟨.send _, .transferred count⟩ => 0 < count.val
  | ⟨.send _, .failed _⟩ => False
  | _ => True

/-- What the loops of the transport rely on, and when they give up. -/
def delivery (deadline rounds : Nat) (stream : Bytes) : Contract Call Call.Answer where
  relies := Delivers deadline stream
  allows _ _ := True
  givesUp past := rounds ≤ retries past

@[simp] theorem sent_append (first second : List HelperEvent) :
    sent (first ++ second) = sent first ++ sent second := by
  simp [sent]

@[simp] theorem retries_append (first second : List HelperEvent) :
    retries (first ++ second) = retries first + retries second := by
  simp [retries]

section Loops

variable {deadline rounds : Nat} {stream : Bytes} {past : List HelperEvent}

/-- Nothing is transferred while the helper waits. -/
theorem delivery_wait
    {left : Nat}
    (enough : rounds ≤ retries past + left)
    (interest : Interest) :
    (wait interest deadline left).Meets (delivery deadline rounds stream) past
      fun later result => result = .ok () ∧ received later = received past ∧
        sent later = sent past ∧ retries past ≤ retries later := by
  induction left generalizing past with
  | zero => exact enough
  | succ left inductionHypothesis =>
      unfold wait
      rw [meets_perform_bind]
      refine ⟨trivial, fun now early => ?_⟩
      split
      · rename_i late
        exact absurd late (Nat.not_le.mpr early)
      · rw [meets_perform_bind]
        refine ⟨trivial, fun polled relied => ?_⟩
        have again (polled : PollResult)
            (retry : isRetry ⟨.poll interest (pollTimeout (deadline - now)), polled⟩ = true) :
            (wait interest deadline left).Meets (delivery deadline rounds stream)
              (past ++ [⟨.instant, now⟩] ++
                [⟨.poll interest (pollTimeout (deadline - now)), polled⟩])
              fun later result => result = .ok () ∧ received later = received past ∧
                sent later = sent past ∧ retries past ≤ retries later := by
          have counted : retries (past ++ [⟨.instant, now⟩] ++
              [⟨.poll interest (pollTimeout (deadline - now)), polled⟩]) = retries past + 1 := by
            have reading : isRetry ⟨.instant, now⟩ = false := rfl
            simp [retries, retry, reading]
          refine (inductionHypothesis (by rw [counted]; omega)).mono ?_
          rintro later result ⟨ok, arrived, put, more⟩
          refine ⟨ok, arrived.trans (by simp [received]), put.trans (by simp [sent]), ?_⟩
          rw [counted] at more
          omega
        cases polled with
        | ready invalid =>
            obtain rfl : invalid = false := relied
            exact ⟨rfl, by simp [received], by simp [sent], by simp⟩
        | timedOut => exact again .timedOut rfl
        | interrupted => exact again .interrupted rfl
        | failed code => exact absurd relied id

/-- A read delivers the next piece of the stream. -/
theorem delivery_readStream
    {left limit : Nat}
    (enough : rounds ≤ retries past + left)
    (delivered : received past <+: stream) :
    (transfer .input deadline rounds (perform (Call.recv limit)) left).Meets
      (delivery deadline rounds stream) past
      fun later result => ∃ chunk, result = .ok chunk ∧
        received later = received past ++ chunk.val ∧ received later <+: stream ∧
        (0 < limit -> chunk.val = [] -> received past = stream) := by
  induction left generalizing past with
  | zero => exact enough
  | succ left inductionHypothesis =>
      unfold transfer
      rw [meets_perform_bind]
      refine ⟨trivial, fun now early => ?_⟩
      split
      · rename_i late
        exact absurd late (Nat.not_le.mpr early)
      · rw [meets_perform_bind]
        refine ⟨trivial, fun transferred relied => ?_⟩
        have again {later : List HelperEvent}
            (counted : retries past + 1 ≤ retries later)
            (same : received later = received past) :
            (transfer .input deadline rounds (perform (Call.recv limit)) left).Meets
              (delivery deadline rounds stream) later
              fun final result => ∃ chunk, result = .ok chunk ∧
                received final = received past ++ chunk.val ∧ received final <+: stream ∧
                (0 < limit -> chunk.val = [] -> received past = stream) := by
          have read := @inductionHypothesis later (by omega) (same ▸ delivered)
          rwa [same] at read
        cases transferred with
        | transferred value =>
            have arrived : received (past ++ [⟨.instant, now⟩] ++
                [⟨.recv limit, .transferred value⟩]) = received past ++ value.val := by
              simp [received]
            have beforehand : received (past ++ [⟨.instant, now⟩]) = received past := by
              simp [received]
            obtain ⟨further, ending⟩ := relied
            rw [beforehand] at further ending
            exact ⟨value, rfl, arrived, arrived ▸ further, ending⟩
        | interrupted =>
            exact again (by simp [retries, isRetry]) (by simp [received])
        | wouldBlock =>
            have counted : retries (past ++ [⟨.instant, now⟩] ++
                [⟨.recv limit, .wouldBlock⟩]) = retries past + 1 := by
              simp [retries, isRetry]
            refine Meets.bind (delivery_wait (Nat.le_add_left _ _) .input) ?_ ?_
            · rintro later _ ⟨-, arrived, -, more⟩
              exact again (counted ▸ more) (arrived.trans (by simp [received]))
            · rintro later error ⟨ok, -⟩
              exact absurd ok (by simp)
        | failed code => exact absurd relied id

/-- By induction over the bytes that are missing: every read brings a piece of the rest,
or the rest is empty. -/
theorem delivery_readExact
    {left missing : Nat}
    {rest : Bytes}
    (enough : missing ≤ left)
    (delivered : received past ++ rest = stream) :
    (readExact deadline rounds left missing).Meets (delivery deadline rounds stream) past
      fun later result =>
        ReadsExactly .unexpectedEof stream rest missing (received later) result := by
  induction left generalizing past missing rest with
  | zero =>
      obtain rfl := Nat.le_zero.mp enough
      rw [readExact, meets_pure]
      exact .nothing delivered
  | succ left inductionHypothesis =>
      unfold readExact
      split
      · rename_i complete
        rw [complete, meets_pure]
        exact .nothing delivered
      · rename_i some
        have isPrefix : received past <+: stream := ⟨rest, delivered⟩
        refine Meets.bind (delivery_readStream (Nat.le_add_left _ _) isPrefix) ?_ ?_
        · rintro later chunk ⟨_, equal, arrived, further, ending⟩
          obtain rfl := Except.ok.inj equal
          obtain ⟨others, remaining⟩ := further
          have split : rest = chunk.val ++ others := by
            have whole := remaining
            rw [arrived, ← delivered, List.append_assoc, List.append_cancel_left_eq] at whole
            exact whole.symm
          split
          · rename_i empty
            have finished := ending (Nat.pos_of_ne_zero some) empty
            have arrived_eq : received later = stream := by
              rw [arrived, empty, List.append_nil, finished]
            rw [finished] at delivered
            rw [meets_fail, arrived_eq]
            exact .ended some delivered
          · rename_i nonempty
            have progress : 0 < chunk.val.length := List.length_pos_iff.mpr nonempty
            have fewer : missing - chunk.val.length ≤ left := by omega
            refine Meets.bind (inductionHypothesis fewer remaining) ?_ ?_
            · exact fun final bytes read => .piece split chunk.property read
            · exact fun final error read => .piece_error split read
        · rintro later error ⟨chunk, equal, -⟩
          exact absurd equal (by simp)

/-- How `read_json_frame` reports an outcome. -/
def frameResult : FrameOutcome -> Except TransportError Bytes
  | .payload bytes => .ok bytes
  | .oversized length => .error (.oversized length)
  | .incomplete => .error (.io .unexpectedEof)

/-- The reader agrees with the outcome of the stream, and consumes no more of it. -/
theorem delivery_readFrame :
    (readFrame deadline rounds).Meets (delivery deadline rounds stream) []
      fun later result => result = frameResult (parseFrame 4 maxFrameLen stream) ∧
        received later = (parseFrame 4 maxFrameLen stream).consumed 4 stream := by
  unfold readFrame
  have start : received [] ++ stream = stream := rfl
  refine Meets.mapError_bind (delivery_readExact (Nat.le_refl 4) start) ?_ ?_
  · intro later header read
    dsimp only
    split
    · rename_i above
      obtain ⟨outcome, arrived⟩ := parseFrame_of_oversized read above
      rw [outcome]
      exact ⟨rfl, arrived⟩
    · rename_i fits
      rw [meets_mapError]
      refine (delivery_readExact (Nat.le_refl _) read.2.2).mono fun final result readBody => ?_
      cases result with
      | ok bytes =>
          obtain ⟨outcome, arrived⟩ := parseFrame_of_body read fits readBody
          rw [outcome]
          exact ⟨rfl, arrived⟩
      | error error =>
          obtain ⟨rfl, outcome, arrived⟩ := parseFrame_of_body_error read fits readBody
          rw [outcome]
          exact ⟨rfl, arrived⟩
  · intro later error read
    obtain ⟨rfl, outcome, arrived⟩ := parseFrame_of_header_error read
    rw [outcome]
    exact ⟨rfl, arrived⟩

/-- A write puts a part of the bytes on the wire that is not empty. -/
theorem delivery_writeStream
    {left : Nat}
    {bytes : Bytes}
    (enough : rounds ≤ retries past + left) :
    (transfer .output deadline rounds (perform (Call.send bytes)) left).Meets
      (delivery deadline rounds stream) past
      fun later result => ∃ count, result = .ok count ∧ 0 < count.val ∧
        sent later = sent past ++ bytes.take count := by
  induction left generalizing past with
  | zero => exact enough
  | succ left inductionHypothesis =>
      unfold transfer
      rw [meets_perform_bind]
      refine ⟨trivial, fun now early => ?_⟩
      split
      · rename_i late
        exact absurd late (Nat.not_le.mpr early)
      · rw [meets_perform_bind]
        refine ⟨trivial, fun transferred relied => ?_⟩
        have again {later : List HelperEvent}
            (counted : retries past + 1 ≤ retries later)
            (same : sent later = sent past) :
            (transfer .output deadline rounds (perform (Call.send bytes)) left).Meets
              (delivery deadline rounds stream) later
              fun final result => ∃ count, result = .ok count ∧ 0 < count.val ∧
                sent final = sent past ++ bytes.take count := by
          have written := @inductionHypothesis later (by omega)
          rwa [same] at written
        cases transferred with
        | transferred count => exact ⟨count, rfl, relied, by simp [sent]⟩
        | interrupted => exact again (by simp [retries, isRetry]) (by simp [sent])
        | wouldBlock =>
            have counted : retries (past ++ [⟨.instant, now⟩] ++
                [⟨.send bytes, .wouldBlock⟩]) = retries past + 1 := by
              simp [retries, isRetry]
            refine Meets.bind (delivery_wait (Nat.le_add_left _ _) .output) ?_ ?_
            · rintro later _ ⟨-, -, put, more⟩
              exact again (counted ▸ more) (put.trans (by simp [sent]))
            · rintro later error ⟨ok, -⟩
              exact absurd ok (by simp)
        | failed code => exact absurd relied id

theorem delivery_writeAll
    {left : Nat}
    {bytes : Bytes}
    (enough : bytes.length ≤ left) :
    (writeAll (writeStream deadline rounds) left bytes).Meets
      (delivery deadline rounds stream) past
      fun later result => result = .ok () ∧ sent later = sent past ++ bytes := by
  induction left generalizing past bytes with
  | zero =>
      obtain rfl := List.length_eq_zero_iff.mp (Nat.le_zero.mp enough)
      exact ⟨rfl, by simp⟩
  | succ left inductionHypothesis =>
      unfold writeAll
      split
      · rename_i empty
        rw [empty]
        exact ⟨rfl, by simp⟩
      · refine Meets.bind (delivery_writeStream (Nat.le_add_left _ _)) ?_ ?_
        · rintro later count ⟨_, equal, positive, put⟩
          obtain rfl := Except.ok.inj equal
          split
          · rename_i none
            omega
          · have fewer : (bytes.drop count).length ≤ left := by
              rw [List.length_drop]
              omega
            refine (inductionHypothesis fewer).mono ?_
            rintro final result ⟨ok, rest⟩
            refine ⟨ok, ?_⟩
            rw [rest, put, List.append_assoc, List.take_append_drop]
        · rintro later error ⟨count, equal, -⟩
          exact absurd equal (by simp)

/-- The writer puts the frame on the wire. -/
theorem delivery_writeFrame
    {payload : Bytes}
    (fits : payload.length ≤ maxFrameLen) :
    (writeFrame deadline rounds payload).Meets (delivery deadline rounds stream) []
      fun later result => result = .ok () ∧ sent later = lengthPrefixed 4 payload := by
  unfold writeFrame
  rw [if_neg (by omega)]
  refine Meets.mapError_bind (delivery_writeAll (by simp)) ?_ ?_
  · rintro later _ ⟨-, header⟩
    rw [meets_mapError]
    refine (delivery_writeAll (Nat.le_refl _)).mono ?_
    rintro final result ⟨rfl, body⟩
    refine ⟨rfl, ?_⟩
    rw [body, header]
    rfl
  · rintro later error ⟨ok, -⟩
    exact absurd ok (by simp)

end Loops

/-! ## Whole executions of the helper -/

/-- Every call of the trace is answered as `Delivers` says. -/
def Delivered (deadline : Nat) (stream : Bytes) (trace : List HelperEvent) : Prop :=
  ∀ before event after, trace = before ++ event :: after ->
    Delivers deadline stream before event

/-- `write_json_frame` puts a payload on the wire as one frame. -/
structure WritesFrames : Prop where
  wire {deadline rounds stream trace payload result} :
    payload.length ≤ maxFrameLen ->
    Delivered deadline stream trace ->
    Ends (writeFrame deadline rounds payload) trace result ->
    result = .ok () ∧ sent trace = lengthPrefixed 4 payload
  persists {deadline rounds stream trace payload} :
    payload.length ≤ maxFrameLen ->
    Delivered deadline stream trace ->
    Steps (writeFrame deadline rounds payload) trace .exhausted ->
    rounds ≤ retries trace

/-- The outcome of `read_json_frame` is that of the stream. -/
structure ReadsFrames : Prop where
  outcome {deadline rounds stream trace result} :
    Delivered deadline stream trace ->
    Ends (readFrame deadline rounds) trace result ->
    result = frameResult (parseFrame 4 maxFrameLen stream) ∧
      received trace = (parseFrame 4 maxFrameLen stream).consumed 4 stream
  persists {deadline rounds stream trace} :
    Delivered deadline stream trace ->
    Steps (readFrame deadline rounds) trace .exhausted ->
    rounds ≤ retries trace

theorem writesFrames : WritesFrames where
  wire fits delivered ends := (delivery_writeFrame fits).outcome ends delivered
  persists fits delivered steps := (delivery_writeFrame fits).exhaustion steps delivered

theorem readsFrames : ReadsFrames where
  outcome delivered ends := delivery_readFrame.outcome ends delivered
  persists delivered steps := delivery_readFrame.exhaustion steps delivered

end Helper

namespace Agent

open Codec Effect Effect.Program

/-! ## The agent's environment -/

variable {Key : Type}

/-- An answer after which a call is repeated. -/
def isRetry : AgentEvent Key -> Bool
  | ⟨.poll _ _, .interrupted⟩ => true
  | ⟨.recv _, .again⟩ => true
  | ⟨.send _, .again⟩ => true
  | _ => false

def retries (past : List (AgentEvent Key)) : Nat :=
  past.countP isRetry

/-- The call may be answered so while the stream is delivered before the deadline. A
`poll` that times out has reached the deadline. -/
def Delivers (deadline : Deadline) (stream : Bytes) (past : List (AgentEvent Key)) :
    AgentEvent Key -> Prop
  | ⟨.uptimeNs, now⟩ => now < deadline.uptimeNs
  | ⟨.poll _ _, .ready invalid⟩ => invalid = false
  | ⟨.poll _ _, .timedOut⟩ => False
  | ⟨.poll _ _, .failed _⟩ => False
  | ⟨.recv _, .received bytes⟩ => received past ++ bytes.val <+: stream
  | ⟨.recv _, .closed⟩ => received past = stream
  | ⟨.recv _, .failed _⟩ => False
  | ⟨.send _, .failed _⟩ => False
  | _ => True

/-- The rounds that the loops have used: one for each retry and at most one for each byte
that was transferred. -/
def roundsUsed (past : List (AgentEvent Key)) : Nat :=
  retries past + (received past).length + (sent past).length

/-- What the loops of the transport rely on, and when they give up. -/
def delivery (deadline : Deadline) (rounds : Nat) (stream : Bytes) :
    Contract (Call Key) Call.Answer where
  relies := Delivers deadline stream
  allows _ _ := True
  givesUp past := rounds ≤ roundsUsed past

@[simp] theorem retries_append (first second : List (AgentEvent Key)) :
    retries (first ++ second) = retries first + retries second := by
  simp [retries]

theorem roundsUsed_append (first second : List (AgentEvent Key)) :
    roundsUsed (first ++ second) = roundsUsed first + roundsUsed second := by
  simp only [roundsUsed, retries_append, received_append, sent_append, List.length_append]
  omega

/-- Nothing is transferred, and no rounds are given back. -/
def OnlyWaits (past later : List (AgentEvent Key)) : Prop :=
  received later = received past ∧ sent later = sent past ∧ retries past ≤ retries later

theorem OnlyWaits.roundsUsed
    {past later : List (AgentEvent Key)}
    (waits : OnlyWaits past later) :
    roundsUsed past ≤ Agent.roundsUsed later := by
  obtain ⟨arrived, put, more⟩ := waits
  simp only [Agent.roundsUsed, arrived, put]
  omega

theorem OnlyWaits.trans
    {past later final : List (AgentEvent Key)}
    (first : OnlyWaits past later)
    (second : OnlyWaits later final) :
    OnlyWaits past final :=
  ⟨second.1.trans first.1, second.2.1.trans first.2.1, first.2.2.trans second.2.2⟩

section Loops

variable {platform : Platform Key} {deadline : Deadline} {rounds : Nat} {stream : Bytes}
variable {past : List (AgentEvent Key)}

theorem delivery_remainingMilliseconds :
    deadline.remainingMilliseconds.Meets (delivery deadline rounds stream) past
      fun later result => OnlyWaits past later ∧ ∃ remaining, result = .ok remaining ∧
        0 < remaining := by
  unfold Deadline.remainingMilliseconds
  rw [meets_perform_bind]
  refine ⟨trivial, fun now early => ?_⟩
  refine ⟨⟨by simp [received], by simp [sent], by simp⟩, _, rfl, ?_⟩
  have early : now < deadline.uptimeNs := early
  rw [Deadline.remainingAt, if_pos early]
  omega

theorem delivery_check :
    deadline.check.Meets (delivery deadline rounds stream) past
      fun later result => OnlyWaits past later ∧ result = .ok () := by
  unfold Deadline.check
  refine Meets.bind delivery_remainingMilliseconds ?_ ?_
  · rintro later remaining ⟨waits, _, equal, positive⟩
    obtain rfl := Except.ok.inj equal
    rw [if_pos positive]
    exact ⟨waits, rfl⟩
  · rintro later error ⟨-, remaining, equal, -⟩
    exact absurd equal (by simp)

theorem delivery_waitForSocket
    {left : Nat}
    (enough : rounds ≤ roundsUsed past + left)
    (interest : Interest) :
    (waitForSocket platform interest deadline left).Meets (delivery deadline rounds stream) past
      fun later result => OnlyWaits past later ∧ result = .ok () := by
  induction left generalizing past with
  | zero => exact enough
  | succ left inductionHypothesis =>
      unfold waitForSocket
      refine Meets.bind delivery_check ?_ fun later error facts => absurd facts.2 (by simp)
      rintro checked _ ⟨checkWaits, -⟩
      refine Meets.bind delivery_remainingMilliseconds ?_ ?_
      · rintro measured remaining ⟨measureWaits, -⟩
        have waits := checkWaits.trans measureWaits
        rw [meets_perform_bind]
        refine ⟨trivial, fun polled relied => ?_⟩
        cases polled with
        | ready invalid =>
            obtain rfl : invalid = false := relied
            have polledWaits : OnlyWaits past
                (measured ++ [⟨.poll interest remaining, .ready false⟩]) :=
              waits.trans ⟨by simp [received], by simp [sent], by simp⟩
            refine Meets.bind delivery_check ?_ fun later error facts => absurd facts.2 (by simp)
            rintro later _ ⟨laterWaits, -⟩
            exact ⟨polledWaits.trans laterWaits, rfl⟩
        | timedOut => exact absurd relied id
        | interrupted =>
            have polledWaits : OnlyWaits past
                (measured ++ [⟨.poll interest remaining, .interrupted⟩]) :=
              waits.trans ⟨by simp [received], by simp [sent], by simp⟩
            have counted : roundsUsed past + 1 ≤ roundsUsed
                (measured ++ [⟨.poll interest remaining, .interrupted⟩]) := by
              have used := waits.roundsUsed
              have one : roundsUsed ([⟨.poll interest remaining, .interrupted⟩] :
                  List (AgentEvent Key)) = 1 := rfl
              rw [roundsUsed_append, one]
              omega
            refine (inductionHypothesis (by omega)).mono ?_
            rintro later result ⟨laterWaits, ok⟩
            exact ⟨polledWaits.trans laterWaits, ok⟩
        | failed code => exact absurd relied id
      · rintro later error ⟨-, remaining, equal, -⟩
        exact absurd equal (by simp)

/-- By induction over the rounds that are left: every read brings a piece of the rest, or
the rest is empty. -/
theorem delivery_readLoop
    {left missing : Nat}
    {rest : Bytes}
    (enough : rounds ≤ roundsUsed past + left)
    (delivered : received past ++ rest = stream) :
    (readLoop platform deadline rounds left missing).Meets (delivery deadline rounds stream) past
      fun later result => ReadsExactly (.agent (.io "unexpected EOF")) stream rest missing
        (received later) result := by
  induction left generalizing past missing rest with
  | zero =>
      unfold readLoop
      split
      · rename_i complete
        rw [complete, meets_pure]
        exact .nothing delivered
      · exact enough
  | succ left inductionHypothesis =>
      unfold readLoop
      split
      · rename_i complete
        rw [complete, meets_pure]
        exact .nothing delivered
      · rename_i some
        refine Meets.bind (delivery_waitForSocket (Nat.le_add_left _ _) .input) ?_
          fun later error facts => absurd facts.2 (by simp)
        rintro waited _ ⟨waits, -⟩
        have used := waits.roundsUsed
        rw [meets_perform_bind]
        refine ⟨trivial, fun arrival relied => ?_⟩
        cases arrival with
        | again =>
            have one : roundsUsed ([⟨.recv missing, .again⟩] : List (AgentEvent Key)) = 1 := rfl
            refine inductionHypothesis ?_ ?_
            · rw [roundsUsed_append, one]
              omega
            · rw [← delivered, ← waits.1]
              simp [received]
        | closed =>
            have finished : received waited = stream := relied
            have unchanged : received (waited ++ [⟨.recv missing, .closed⟩]) = stream := by
              rw [← finished]
              simp [received]
            rw [← waits.1, finished] at delivered
            dsimp only
            rw [raise, meets_fail, unchanged]
            exact .ended some delivered
        | failed code => exact absurd relied id
        | received chunk =>
            have arrived : received (waited ++ [⟨.recv missing, .received chunk⟩]) =
                received past ++ chunk.val := by
              rw [← waits.1]
              simp [received]
            obtain ⟨others, remaining⟩ : received waited ++ chunk.val <+: stream := relied
            have split : rest = chunk.val ++ others := by
              have whole := remaining
              rw [waits.1, ← delivered, List.append_assoc, List.append_cancel_left_eq] at whole
              exact whole.symm
            have progress : 0 < chunk.val.length := List.length_pos_iff.mpr chunk.property.1
            have some : roundsUsed ([⟨.recv missing, .received chunk⟩] :
                List (AgentEvent Key)) = chunk.val.length := by
              simp [roundsUsed, retries, isRetry, received, sent]
            have enoughLater : rounds ≤
                roundsUsed (waited ++ [⟨.recv missing, .received chunk⟩]) + left := by
              rw [roundsUsed_append, some]
              omega
            have deliveredLater :
                received (waited ++ [⟨.recv missing, .received chunk⟩]) ++ others = stream := by
              rw [arrived, ← waits.1, remaining]
            refine Meets.bind (inductionHypothesis enoughLater deliveredLater) ?_ ?_
            · exact fun final bytes read => .piece split chunk.property.2 read
            · exact fun final error read => .piece_error split read

/-- How `readJSONFrame` reports an outcome. -/
def frameResult (platform : Platform Key) : FrameOutcome -> Except Failure SignedAuthRequest
  | .payload bytes =>
      match platform.requestFromJson bytes with
      | some request => .ok request
      | none => .error .coding
  | .oversized length => .error (.agent (.io s!"frame too large: {length}"))
  | .incomplete => .error (.agent (.io "unexpected EOF"))

/-- The reader hands the payload of the stream to the decoder and consumes no more. -/
theorem delivery_readJSONFrame :
    (readJSONFrame platform deadline rounds).Meets (delivery deadline rounds stream) []
      fun later result => result = frameResult platform (parseFrame 4 maxFrameLength stream) ∧
        received later = (parseFrame 4 maxFrameLength stream).consumed 4 stream := by
  unfold readJSONFrame readExactly
  have start : received ([] : List (AgentEvent Key)) ++ stream = stream := rfl
  refine Meets.bind (delivery_readLoop (Nat.le_add_left _ _) start) ?_ ?_
  · intro later header read
    dsimp only
    split
    · rename_i above
      obtain ⟨outcome, arrived⟩ := parseFrame_of_oversized read above
      rw [outcome]
      exact ⟨rfl, arrived⟩
    · rename_i fits
      refine Meets.bind (delivery_readLoop (Nat.le_add_left _ _) read.2.2) ?_ ?_
      · intro final bytes readBody
        obtain ⟨outcome, arrived⟩ := parseFrame_of_body read fits readBody
        rw [outcome]
        simp only [frameResult]
        cases platform.requestFromJson bytes with
        | some request => exact ⟨rfl, arrived⟩
        | none => exact ⟨rfl, arrived⟩
      · intro final error readBody
        obtain ⟨rfl, outcome, arrived⟩ := parseFrame_of_body_error read fits readBody
        rw [outcome]
        exact ⟨rfl, arrived⟩
  · intro later error read
    obtain ⟨rfl, outcome, arrived⟩ := parseFrame_of_header_error read
    rw [outcome]
    exact ⟨rfl, arrived⟩

theorem delivery_writeLoop
    {left : Nat}
    {data : Bytes}
    (enough : rounds ≤ roundsUsed past + left) :
    (writeLoop platform deadline rounds left data).Meets (delivery deadline rounds stream) past
      fun later result => result = .ok () ∧ sent later = sent past ++ data := by
  induction left generalizing past data with
  | zero =>
      unfold writeLoop
      split
      · rename_i empty
        rw [empty]
        exact ⟨rfl, by simp⟩
      · exact enough
  | succ left inductionHypothesis =>
      unfold writeLoop
      split
      · rename_i empty
        rw [empty]
        exact ⟨rfl, by simp⟩
      · refine Meets.bind (delivery_waitForSocket (Nat.le_add_left _ _) .output) ?_
          fun later error facts => absurd facts.2 (by simp)
        rintro waited _ ⟨waits, -⟩
        have used := waits.roundsUsed
        rw [meets_perform_bind]
        refine ⟨trivial, fun answer relied => ?_⟩
        cases answer with
        | again =>
            have one : roundsUsed ([⟨.send data, .again⟩] : List (AgentEvent Key)) = 1 := rfl
            have same : sent (waited ++ [⟨.send data, .again⟩]) = sent past := by
              rw [← waits.2.1]
              simp [sent]
            rw [← same]
            refine inductionHypothesis ?_
            rw [roundsUsed_append, one]
            omega
        | failed code => exact absurd relied id
        | sent count =>
            have put : sent (waited ++ [⟨.send data, .sent count⟩]) =
                sent past ++ data.take count := by
              rw [← waits.2.1]
              simp [sent]
            have some : roundsUsed ([⟨.send data, .sent count⟩] : List (AgentEvent Key)) =
                count.val := by
              simp [roundsUsed, retries, isRetry, received, sent, count.property.2]
            have positive := count.property.1
            refine (inductionHypothesis ?_).mono ?_
            · rw [roundsUsed_append, some]
              omega
            · rintro later result ⟨ok, rest⟩
              refine ⟨ok, ?_⟩
              rw [rest, put, List.append_assoc, List.take_append_drop]

/-- The writer puts the frame on the wire. -/
theorem delivery_writeJSONFrame
    {response : SignedAuthResponse}
    {payload : Bytes}
    (encoded : platform.responseToJson response = some payload)
    (fits : payload.length ≤ maxFrameLength) :
    (writeJSONFrame platform deadline rounds response).Meets (delivery deadline rounds stream) []
      fun later result => result = .ok () ∧ sent later = lengthPrefixed 4 payload := by
  unfold writeJSONFrame
  rw [encoded]
  dsimp only
  rw [if_neg (by omega)]
  exact delivery_writeLoop (Nat.le_add_left _ _)

end Loops

/-! ## Whole executions of the agent -/

/-- Every call of the trace is answered as `Delivers` says. -/
def Delivered (deadline : Deadline) (stream : Bytes) (trace : List (AgentEvent Key)) : Prop :=
  ∀ before event after, trace = before ++ event :: after ->
    Delivers deadline stream before event

/-- `writeJSONFrame` puts the encoding of a response on the wire as one frame. -/
structure WritesFrames (platform : Platform Key) : Prop where
  wire {deadline rounds stream trace response payload result} :
    platform.responseToJson response = some payload ->
    payload.length ≤ maxFrameLength ->
    Delivered deadline stream trace ->
    Ends (writeJSONFrame platform deadline rounds response) trace result ->
    result = .ok () ∧ sent trace = lengthPrefixed 4 payload
  persists {deadline rounds stream trace response payload} :
    platform.responseToJson response = some payload ->
    payload.length ≤ maxFrameLength ->
    Delivered deadline stream trace ->
    Steps (writeJSONFrame platform deadline rounds response) trace .exhausted ->
    rounds ≤ roundsUsed trace

/-- The outcome of `readJSONFrame` is that of the stream. -/
structure ReadsFrames (platform : Platform Key) : Prop where
  outcome {deadline rounds stream trace result} :
    Delivered deadline stream trace ->
    Ends (readJSONFrame platform deadline rounds) trace result ->
    result = frameResult platform (parseFrame 4 maxFrameLength stream) ∧
      received trace = (parseFrame 4 maxFrameLength stream).consumed 4 stream
  persists {deadline rounds stream trace} :
    Delivered deadline stream trace ->
    Steps (readJSONFrame platform deadline rounds) trace .exhausted ->
    rounds ≤ roundsUsed trace

theorem writesFrames (platform : Platform Key) : WritesFrames platform where
  wire encoded fits delivered ends :=
    (delivery_writeJSONFrame encoded fits).outcome ends delivered
  persists encoded fits delivered steps :=
    (delivery_writeJSONFrame encoded fits).exhaustion steps delivered

theorem readsFrames (platform : Platform Key) : ReadsFrames platform where
  outcome delivered ends := delivery_readJSONFrame.outcome ends delivered
  persists delivered steps := delivery_readJSONFrame.exhaustion steps delivered

end Agent

namespace EndToEnd

open Codec

/-- Both writers put the same frame on the wire for every way in which the transfers are
cut and repeated, and for every such way both readers have the outcome of the stream,
which for a frame in front of any bytes is its payload. -/
theorem framing
    {Key : Type}
    (platform : Agent.Platform Key) :
    Helper.WritesFrames ∧ Agent.WritesFrames platform ∧
      Helper.ReadsFrames ∧ Agent.ReadsFrames platform ∧
      Helper.maxFrameLen = 2 ^ 20 ∧ Agent.maxFrameLength = 2 ^ 20 ∧
      ∀ payload rest : Bytes, payload.length ≤ 2 ^ 20 ->
        parseFrame 4 (2 ^ 20) (lengthPrefixed 4 payload ++ rest) = .payload payload := by
  refine ⟨Helper.writesFrames, Agent.writesFrames platform, Helper.readsFrames,
    Agent.readsFrames platform, rfl, rfl, ?_⟩
  intro payload rest fits
  exact parseFrame_lengthPrefixed fits (by decide) rest

end EndToEnd
end MacosAuth
