import MacosAuth.Codec.SelfDelimiting

/-!
# Frames in a byte stream

A frame is a byte string after its length in a fixed number of bytes. `parseFrame`
says what a stream starts with, as a function of the stream alone: a reader that gets
the stream in pieces has to agree with it, however the stream is cut.
-/

namespace Codec

/-- What a stream starts with. -/
inductive FrameOutcome
  | payload (bytes : Bytes)
  /-- The declared length is above the limit. -/
  | oversized (length : Nat)
  /-- The stream ends inside the header or inside the payload. -/
  | incomplete
  deriving DecidableEq

/-- The start of a stream of frames with a `width`-byte header. -/
def parseFrame (width limit : Nat) (stream : Bytes) : FrameOutcome :=
  if stream.length < width then
    .incomplete
  else
    let length := fromBigEndian (stream.take width)
    if limit < length then .oversized length
    else if stream.length < width + length then .incomplete
    else .payload ((stream.drop width).take length)

/-- How much of the stream is read until the outcome is known. -/
def FrameOutcome.consumed (width : Nat) (stream : Bytes) : FrameOutcome -> Bytes
  | .payload bytes => stream.take (width + bytes.length)
  | .oversized _ => stream.take width
  | .incomplete => stream

theorem fromBigEndian_bigEndian
    {width value : Nat}
    (bound : value < 256 ^ width) :
    fromBigEndian (bigEndian width value) = value := by
  induction width generalizing value with
  | zero =>
      rw [Nat.pow_zero, Nat.lt_one_iff] at bound
      rw [bound]
      rfl
  | succ width inductionHypothesis =>
      have high : value / 256 < 256 ^ width := by
        rw [pow_succ] at bound
        omega
      have low : (UInt8.ofNat value).toNat = value % 256 := UInt8.toNat_ofNat'
      rw [bigEndian, fromBigEndian_concat, inductionHypothesis high, low]
      omega

/-- A frame is read back, whatever follows it. -/
theorem parseFrame_lengthPrefixed
    {width limit : Nat}
    {payload : Bytes}
    (fits : payload.length ≤ limit)
    (bound : limit < 256 ^ width)
    (rest : Bytes) :
    parseFrame width limit (lengthPrefixed width payload ++ rest) = .payload payload := by
  have header : (lengthPrefixed width payload ++ rest).take width =
      bigEndian width payload.length := by
    rw [lengthPrefixed, List.append_assoc, List.take_left' (length_bigEndian _ _)]
  have body : (lengthPrefixed width payload ++ rest).drop width = payload ++ rest := by
    rw [lengthPrefixed, List.append_assoc, List.drop_left' (length_bigEndian _ _)]
  have declared : fromBigEndian (bigEndian width payload.length) = payload.length :=
    fromBigEndian_bigEndian (by omega)
  have total : (lengthPrefixed width payload ++ rest).length =
      width + payload.length + rest.length := by
    rw [List.length_append, length_lengthPrefixed]
  simp only [parseFrame, header, body, declared, total]
  rw [if_neg (by omega), if_neg (by omega), if_neg (by omega), List.take_left]

/-! ## Reading a stream in pieces -/

/-- A reader wants the next `missing` bytes of the rest of a stream. What it got and all
that arrived are determined by the stream. -/
def ReadsExactly
    {ε : Type}
    (endOfStream : ε)
    (stream rest : Bytes)
    (missing : Nat)
    (arrived : Bytes) : Except ε Bytes -> Prop
  | .ok bytes =>
      missing ≤ rest.length ∧ bytes = rest.take missing ∧ arrived ++ rest.drop missing = stream
  | .error error => rest.length < missing ∧ error = endOfStream ∧ arrived = stream

namespace ReadsExactly

variable {ε : Type} {endOfStream : ε} {stream rest others chunk arrived : Bytes}
variable {missing : Nat}

theorem nothing
    (delivered : arrived ++ rest = stream) :
    ReadsExactly endOfStream stream rest 0 arrived (.ok []) :=
  ⟨Nat.zero_le _, by simp, by simpa using delivered⟩

/-- The stream ends while something is missing. -/
theorem ended
    (some : missing ≠ 0)
    (delivered : stream ++ rest = stream) :
    ReadsExactly endOfStream stream rest missing stream (.error endOfStream) := by
  have noRest : rest = [] := by simpa using delivered
  refine ⟨?_, rfl, rfl⟩
  rw [noRest]
  exact Nat.pos_of_ne_zero some

/-- A piece in front of what is read later. -/
theorem piece
    (split : rest = chunk ++ others)
    (bound : chunk.length ≤ missing)
    {bytes : Bytes}
    (reads : ReadsExactly endOfStream stream others (missing - chunk.length) arrived
      (.ok bytes)) :
    ReadsExactly endOfStream stream rest missing arrived (.ok (chunk ++ bytes)) := by
  obtain ⟨fits, rfl, whole⟩ := reads
  have length_eq : rest.length = chunk.length + others.length := by
    rw [split, List.length_append]
  refine ⟨by omega, ?_, ?_⟩
  · rw [split, List.take_append, List.take_of_length_le bound]
  · rw [split, List.drop_append, List.drop_of_length_le bound, List.nil_append, whole]

theorem piece_error
    (split : rest = chunk ++ others)
    {error : ε}
    (reads : ReadsExactly endOfStream stream others (missing - chunk.length) arrived
      (.error error)) :
    ReadsExactly endOfStream stream rest missing arrived (.error error) := by
  obtain ⟨short, isEnd, whole⟩ := reads
  have length_eq : rest.length = chunk.length + others.length := by
    rw [split, List.length_append]
  exact ⟨by omega, isEnd, whole⟩

end ReadsExactly

/-! ## A frame in two reads -/

section Frames

variable {ε : Type} {endOfStream error : ε} {stream arrived header bytes : Bytes}
variable {width limit : Nat}

theorem parseFrame_of_header_error
    (reads : ReadsExactly endOfStream stream stream width arrived (.error error)) :
    error = endOfStream ∧ parseFrame width limit stream = .incomplete ∧ arrived = stream :=
  ⟨reads.2.1, if_pos reads.1, reads.2.2⟩

/-- The header has arrived and declares a length above the limit. -/
theorem parseFrame_of_oversized
    (reads : ReadsExactly endOfStream stream stream width arrived (.ok header))
    (above : limit < fromBigEndian header) :
    parseFrame width limit stream = .oversized (fromBigEndian header) ∧
      arrived = stream.take width := by
  obtain ⟨complete, rfl, whole⟩ := reads
  constructor
  · rw [parseFrame, if_neg (by omega)]
    exact if_pos above
  · conv_rhs at whole => rw [← List.take_append_drop width stream]
    exact List.append_cancel_right whole

theorem parseFrame_of_body_error
    {early : Bytes}
    (reads : ReadsExactly endOfStream stream stream width early (.ok header))
    (fits : ¬limit < fromBigEndian header)
    (readsBody : ReadsExactly endOfStream stream (stream.drop width) (fromBigEndian header)
      arrived (.error error)) :
    error = endOfStream ∧ parseFrame width limit stream = .incomplete ∧ arrived = stream := by
  obtain ⟨complete, rfl, -⟩ := reads
  obtain ⟨short, isEnd, whole⟩ := readsBody
  rw [List.length_drop] at short
  refine ⟨isEnd, ?_, whole⟩
  simp only [parseFrame]
  rw [if_neg (by omega), if_neg fits, if_pos (by omega)]

/-- Header and payload have arrived. -/
theorem parseFrame_of_body
    {early : Bytes}
    (reads : ReadsExactly endOfStream stream stream width early (.ok header))
    (fits : ¬limit < fromBigEndian header)
    (readsBody : ReadsExactly endOfStream stream (stream.drop width) (fromBigEndian header)
      arrived (.ok bytes)) :
    parseFrame width limit stream = .payload bytes ∧
      arrived = stream.take (width + bytes.length) := by
  obtain ⟨complete, rfl, -⟩ := reads
  obtain ⟨long, rfl, whole⟩ := readsBody
  have length_eq : (stream.drop width).length = stream.length - width := List.length_drop
  constructor
  · simp only [parseFrame]
    rw [if_neg (by omega), if_neg fits, if_neg (by omega)]
  · rw [List.drop_drop] at whole
    rw [List.length_take_of_le long]
    conv_rhs at whole => rw [← List.take_append_drop (width + fromBigEndian (stream.take width)) stream]
    exact List.append_cancel_right whole

end Frames

end Codec
