import MacosAuth.Codec.Decimal
import MacosAuth.Effect.Total
import MacosAuth.Pam.Authenticate

/-!
# Scrubbing of inherited descriptors

Before it becomes the helper, the child closes every descriptor from 4 on. Where the
kernel cannot do this in one call, the child lists its own descriptors with raw
`getdents64` calls: it walks over the records of each batch, reads the number in each
name, and closes that descriptor, but not the one it is listing with.

The listing may come in any batches and in any order. If it comes to its end, nothing from
4 on is open any more. If a call of the listing fails or a record has no length, the child
exits.
-/

namespace MacosAuth
namespace Pam

open Codec
open Effect Effect.Program

/-- What `getdents64` has written: the number of bytes, and the buffer. -/
structure Batch where
  count : Nat
  buffer : Bytes
  fits : count ≤ 4096
  size : buffer.length = 4096

inductive DescriptorCall
  /-- `close_range(4, ~0, 0)`. -/
  | closeRange
  /-- `open("/proc/self/fd", ..)`. -/
  | openDirectory
  | getdents (directory : Nat)
  | close (fd : Nat)

/-- Answers to each call. The result of `close` is not looked at. -/
@[reducible] def DescriptorCall.Answer : DescriptorCall -> Type
  | .closeRange => Bool
  | .openDirectory => Option Nat
  | .getdents _ => Except Nat Batch
  | .close _ => Unit

/-- A part of `close_inherited_fds`. Its error is the result -1. -/
abbrev Scrubbing := Program DescriptorCall DescriptorCall.Answer Unit

/-- `reclen` of the entry at the offset, a little-endian number. -/
def entryReclen (buffer : Bytes) (offset : Nat) : Nat :=
  (buffer.getD (offset + 16) 0).toNat + 256 * (buffer.getD (offset + 17) 0).toNat

/-- The number in the name of the entry at the offset. -/
def entryFd (buffer : Bytes) (offset : Nat) : Nat :=
  readDigits 0 (buffer.drop (offset + 19))

/-- The walk over the entries of a batch. Every entry has a length, so there need be no
more rounds than bytes. -/
def closeEntries (directory : Nat) (batch : Batch) : Nat -> Nat -> Scrubbing Unit
  | 0, _ => .exhausted
  | rounds + 1, offset => do
      if offset < batch.count then
        if entryReclen batch.buffer offset = 0 then
          perform (DescriptorCall.close directory)
          fail ()
        else
          let fd := entryFd batch.buffer offset
          if 4 ≤ fd ∧ fd ≠ directory then
            perform (DescriptorCall.close fd)
          else
            pure ()
          closeEntries directory batch rounds (offset + entryReclen batch.buffer offset)
      else
        pure ()

/-- The loop over the batches. -/
def closeListed (directory : Nat) : Nat -> Scrubbing Unit
  | 0 => .exhausted
  | rounds + 1 => do
      let listing : Except Nat Batch ← perform (DescriptorCall.getdents directory)
      match listing with
      | .error code =>
          if code = eintr then
            closeListed directory rounds
          else do
            perform (DescriptorCall.close directory)
            fail ()
      | .ok batch =>
          if batch.count = 0 then
            pure ()
          else do
            closeEntries directory batch (batch.count + 1) 0
            closeListed directory rounds

/-- The path of `close_inherited_fds` without `close_range`. -/
def closeByListing (rounds : Nat) : Scrubbing Unit := do
  let opened : Option Nat ← perform DescriptorCall.openDirectory
  match opened with
  | none => fail ()
  | some directory => do
      closeListed directory rounds
      perform (DescriptorCall.close directory)

/-- `close_range` is tried first where the system call is known. -/
def closeInheritedFds (hasCloseRange : Bool) (rounds : Nat) : Scrubbing Unit := do
  if hasCloseRange then
    let closed : Bool ← perform DescriptorCall.closeRange
    if closed then pure () else closeByListing rounds
  else
    closeByListing rounds

/-! ## Failed listings -/

/-- The walk comes from one offset to another. -/
inductive Batch.Reaches (batch : Batch) : Nat -> Nat -> Prop
  | refl (offset : Nat) : batch.Reaches offset offset
  | step {offset target : Nat} :
      offset < batch.count -> entryReclen batch.buffer offset ≠ 0 ->
        batch.Reaches (offset + entryReclen batch.buffer offset) target ->
          batch.Reaches offset target

/-- The walk comes to an entry without a length. -/
def Batch.HasZeroEntry (batch : Batch) : Prop :=
  ∃ offset, batch.Reaches 0 offset ∧ offset < batch.count ∧ entryReclen batch.buffer offset = 0

/-- The events after which a listing is incomplete. -/
def ListingFails : Event DescriptorCall DescriptorCall.Answer -> Prop
  | ⟨.openDirectory, none⟩ => True
  | ⟨.getdents _, .error code⟩ => code ≠ eintr
  | ⟨.getdents _, .ok batch⟩ => batch.HasZeroEntry
  | _ => False

/-- However the calls are answered, the result is -1. -/
def Doomed {α : Type} (program : Scrubbing α) : Prop :=
  program.Achieves (fun (_ : Unit) _ _ _ => True) () fun result _ => result = .error ()

/-- After an event of a failed listing, the rest of the program is doomed. -/
def StopsAfterFailure {α : Type} : Scrubbing α -> Prop
  | .done _ => True
  | .call request next => ∀ answer,
      (ListingFails ⟨request, answer⟩ -> Doomed (next answer)) ∧ StopsAfterFailure (next answer)
  | .exhausted => True

section Failing

variable {α β : Type}

theorem Doomed.bind
    {program : Scrubbing α}
    (doomed : Doomed program)
    (next : α -> Scrubbing β) :
    Doomed (program >>= next) := by
  refine Achieves.bind doomed ?_ ?_
  · rintro value after ⟨⟩
  · rintro ⟨⟩ after _
    rfl

theorem Doomed.steps
    {program rest : Scrubbing α}
    {trace : List (Event DescriptorCall DescriptorCall.Answer)}
    (doomed : Doomed program)
    (steps : Steps program trace rest) :
    Doomed rest := by
  induction steps with
  | refl program => exact doomed
  | call _ inductionHypothesis => exact inductionHypothesis (doomed.2 _ () trivial)

/-- In no world does a doomed program return 0. -/
theorem Doomed.survives
    {σ : Type}
    {serves : σ -> (request : DescriptorCall) -> request.Answer -> σ -> Prop}
    {program : Scrubbing α}
    (doomed : Doomed program)
    (world : σ) :
    program.Survives serves (fun _ => True) world fun result _ => result = .error () := by
  induction program generalizing world with
  | done result => exact ⟨trivial, doomed⟩
  | call request next inductionHypothesis =>
      exact ⟨trivial, fun answer after _ =>
        inductionHypothesis answer (doomed.2 answer () trivial) after⟩
  | exhausted => exact doomed.elim

theorem StopsAfterFailure.bind
    {program : Scrubbing α}
    {next : α -> Scrubbing β}
    (stops : StopsAfterFailure program)
    (continues : ∀ value, StopsAfterFailure (next value)) :
    StopsAfterFailure (program >>= next) := by
  change StopsAfterFailure (program.bind next)
  induction program with
  | done result =>
      cases result with
      | ok value => exact continues value
      | error error => trivial
  | call request rest inductionHypothesis =>
      intro answer
      obtain ⟨doomed, later⟩ := stops answer
      exact ⟨fun failed => (doomed failed).bind next, inductionHypothesis answer later⟩
  | exhausted => trivial

theorem StopsAfterFailure.steps
    {program rest : Scrubbing α}
    {trace : List (Event DescriptorCall DescriptorCall.Answer)}
    (stops : StopsAfterFailure program)
    (steps : Steps program trace rest)
    (fails : ∃ event ∈ trace, ListingFails event) :
    Doomed rest := by
  induction steps with
  | refl program => simp at fails
  | @call request next answer trace rest later inductionHypothesis =>
      obtain ⟨event, member, failed⟩ := fails
      rcases List.mem_cons.mp member with rfl | member
      · exact ((stops answer).1 failed).steps later
      · exact inductionHypothesis (stops answer).2 ⟨event, member, failed⟩

/-- Induction over the rounds: the walk gets to the entry without a length. -/
theorem doomed_closeEntries
    (directory : Nat)
    {batch : Batch}
    {rounds offset target : Nat}
    (reaches : batch.Reaches offset target)
    (inside : target < batch.count)
    (zero : entryReclen batch.buffer target = 0)
    (enough : batch.count < offset + rounds) :
    Doomed (closeEntries directory batch rounds offset) := by
  induction rounds generalizing offset with
  | zero =>
      have ordered : offset ≤ target := by
        induction reaches with
        | refl offset => exact le_rfl
        | step _ _ _ inductionHypothesis =>
            have later := inductionHypothesis inside zero (by omega)
            omega
      omega
  | succ rounds inductionHypothesis =>
      unfold closeEntries
      cases reaches with
      | refl offset =>
          rw [if_pos inside, if_pos zero]
          exact ⟨⟨(), (), trivial⟩, fun _ _ _ => rfl⟩
      | step before length reaches =>
          rw [if_pos before, if_neg length]
          have later := inductionHypothesis reaches (by omega)
          change Doomed (do
            if 4 ≤ entryFd batch.buffer offset ∧ entryFd batch.buffer offset ≠ directory then
              perform (DescriptorCall.close (entryFd batch.buffer offset))
            else
              pure ()
            closeEntries directory batch rounds (offset + entryReclen batch.buffer offset))
          split
          · exact ⟨⟨(), (), trivial⟩, fun _ _ _ => later⟩
          · exact later

theorem stopsAfterFailure_closeEntries
    (directory : Nat)
    (batch : Batch)
    (rounds offset : Nat) :
    StopsAfterFailure (closeEntries directory batch rounds offset) := by
  induction rounds generalizing offset with
  | zero => trivial
  | succ rounds inductionHypothesis =>
      unfold closeEntries
      split
      · split
        · exact fun _ => ⟨False.elim, trivial⟩
        · change StopsAfterFailure (do
            if 4 ≤ entryFd batch.buffer offset ∧ entryFd batch.buffer offset ≠ directory then
              perform (DescriptorCall.close (entryFd batch.buffer offset))
            else
              pure ()
            closeEntries directory batch rounds (offset + entryReclen batch.buffer offset))
          split
          · exact fun _ => ⟨False.elim, inductionHypothesis _⟩
          · exact inductionHypothesis _
      · trivial

theorem stopsAfterFailure_closeListed
    (directory rounds : Nat) :
    StopsAfterFailure (closeListed directory rounds) := by
  induction rounds with
  | zero => trivial
  | succ rounds inductionHypothesis =>
      rintro (code | batch)
      · change (code ≠ eintr -> Doomed (if code = eintr then closeListed directory rounds else do
          perform (DescriptorCall.close directory)
          fail ())) ∧ StopsAfterFailure (if code = eintr then closeListed directory rounds else do
          perform (DescriptorCall.close directory)
          fail ())
        by_cases interrupted : code = eintr
        · rw [if_pos interrupted]
          exact ⟨fun failed => absurd interrupted failed, inductionHypothesis⟩
        · rw [if_neg interrupted]
          exact ⟨fun _ => ⟨⟨(), (), trivial⟩, fun _ _ _ => rfl⟩, fun _ => ⟨False.elim, trivial⟩⟩
      · change (batch.HasZeroEntry -> Doomed (if batch.count = 0 then pure () else do
          closeEntries directory batch (batch.count + 1) 0
          closeListed directory rounds)) ∧ StopsAfterFailure (if batch.count = 0 then pure () else do
          closeEntries directory batch (batch.count + 1) 0
          closeListed directory rounds)
        by_cases ended : batch.count = 0
        · rw [if_pos ended]
          refine ⟨?_, trivial⟩
          rintro ⟨offset, _, inside, _⟩
          omega
        · rw [if_neg ended]
          refine ⟨?_, (stopsAfterFailure_closeEntries _ _ _ _).bind fun _ => inductionHypothesis⟩
          rintro ⟨offset, reaches, inside, zero⟩
          exact (doomed_closeEntries directory reaches inside zero (by omega)).bind _

/-- A failed call of the listing or an entry without a length leads to the result -1. -/
theorem stopsAfterFailure_closeInheritedFds
    (hasCloseRange : Bool)
    (rounds : Nat) :
    StopsAfterFailure (closeInheritedFds hasCloseRange rounds) := by
  have listing : StopsAfterFailure (closeByListing rounds) := by
    rintro (_ | directory)
    · exact ⟨fun _ => rfl, trivial⟩
    · refine ⟨False.elim, (stopsAfterFailure_closeListed directory rounds).bind fun _ => ?_⟩
      exact fun _ => ⟨False.elim, trivial⟩
  unfold closeInheritedFds
  split
  · rintro (_ | _)
    · exact ⟨False.elim, listing⟩
    · exact ⟨False.elim, trivial⟩
  · exact listing

end Failing

/-! ## Complete listings -/

/-- The names in `/proc/self/fd`. -/
inductive EntryName
  | descriptor (number : Nat)
  | dot
  | dots

def EntryName.bytes : EntryName -> Bytes
  | .descriptor number => decimal number
  | .dot => [0x2e]
  | .dots => [0x2e, 0x2e]

/-- What the kernel writes for one name: the inode and the offset, the length, the type, the
name with a zero byte, and padding. -/
structure DirEntry where
  header : Bytes
  kind : UInt8
  name : EntryName
  padding : Bytes
  headerSize : header.length = 16
  small : 20 + name.bytes.length + padding.length < 65536

namespace DirEntry

def size (entry : DirEntry) : Nat :=
  20 + entry.name.bytes.length + entry.padding.length

def bytes (entry : DirEntry) : Bytes :=
  entry.header ++ (UInt8.ofNat entry.size :: UInt8.ofNat (entry.size / 256) :: entry.kind ::
    (entry.name.bytes ++ 0 :: entry.padding))

@[simp] theorem length_bytes (entry : DirEntry) : entry.bytes.length = entry.size := by
  simp only [bytes, size, List.length_append, List.length_cons, entry.headerSize]
  omega

end DirEntry

/-- The batch holds the entries. -/
def Batch.Lists (batch : Batch) (entries : List DirEntry) : Prop :=
  (entries.flatMap DirEntry.bytes).length = batch.count ∧
    entries.flatMap DirEntry.bytes <+: batch.buffer

/-- The open descriptors of the process, and those for which the listing has returned an
entry. -/
structure DescriptorTable where
  descriptors : Finset Nat
  listed : List Nat

/-- The numbers that a batch lists. -/
def listedNumbers (entries : List DirEntry) : List Nat :=
  entries.filterMap fun entry =>
    match entry.name with
    | .descriptor number => some number
    | _ => none

/-- How the kernel answers. Entries may come in any batches and any order, and may be of
descriptors that are closed. The listing ends only when every descriptor that is still open
has had its entry. -/
def DescriptorTable.Serves (world : DescriptorTable) :
    (request : DescriptorCall) -> request.Answer -> DescriptorTable -> Prop
  | .closeRange, true, after =>
      after = { world with descriptors := world.descriptors.filter (· < 4) }
  | .closeRange, false, after => after = world
  | .openDirectory, some directory, after =>
      directory ∉ world.descriptors ∧
        after = ⟨insert directory world.descriptors, []⟩
  | .openDirectory, none, after => after = world
  | .getdents _, .error _, after => after = world
  | .getdents _, .ok batch, after =>
      (batch.count = 0 ∧ (∀ fd ∈ world.descriptors, fd ∈ world.listed) ∧ after = world) ∨
      (batch.count ≠ 0 ∧ ∃ entries, batch.Lists entries ∧
        after = { world with listed := world.listed ++ listedNumbers entries }) ∨
      (batch.HasZeroEntry ∧ after = world)
  | .close fd, _, after => after = { world with descriptors := world.descriptors.erase fd }

section Listing

variable {world : DescriptorTable} {directory : Nat} {batch : Batch}

/-- At an entry of the batch, its length and its number are read. -/
theorem read_entry
    {offset : Nat}
    {entry : DirEntry}
    {rest : Bytes}
    (position : batch.buffer.drop offset = entry.bytes ++ rest) :
    entryReclen batch.buffer offset = entry.size ∧
      entryFd batch.buffer offset =
        match entry.name with
        | .descriptor number => number
        | _ => 0 := by
  have bytesAt : ∀ index, batch.buffer.getD (offset + index) 0 =
      (entry.bytes ++ rest).getD index 0 := by
    intro index
    rw [← position, List.getD_eq_getElem?_getD, List.getD_eq_getElem?_getD,
      List.getElem?_drop]
  have small : entry.size < 65536 := entry.small
  constructor
  · have low : (entry.bytes ++ rest).getD 16 0 = UInt8.ofNat entry.size := by
      simp [DirEntry.bytes, List.getD_eq_getElem?_getD, entry.headerSize]
    have high : (entry.bytes ++ rest).getD 17 0 = UInt8.ofNat (entry.size / 256) := by
      simp [DirEntry.bytes, List.getD_eq_getElem?_getD, List.getElem?_append_right,
        entry.headerSize]
    rw [entryReclen, bytesAt, bytesAt, low, high, UInt8.toNat_ofNat', UInt8.toNat_ofNat']
    omega
  · have nameAt : batch.buffer.drop (offset + 19) =
        entry.name.bytes ++ (0 :: entry.padding ++ rest) := by
      rw [← List.drop_drop, position]
      simp [DirEntry.bytes, List.drop_append, entry.headerSize]
    rw [entryFd, nameAt]
    cases entry.name with
    | descriptor number => exact readDigits_decimal (by decide) number _
    | dot => exact readDigits_of_not_digit (by decide) 0 _
    | dots => exact readDigits_of_not_digit (by decide) 0 _

/-- What remains open after the walk over some entries. -/
def keptAfter (directory : Nat) (entries : List DirEntry) (descriptors : Finset Nat) :
    Finset Nat :=
  descriptors.filter fun fd => ¬(fd ∈ listedNumbers entries ∧ 4 ≤ fd ∧ fd ≠ directory)

theorem mem_keptAfter
    {entries : List DirEntry}
    {descriptors : Finset Nat}
    {fd : Nat} :
    fd ∈ keptAfter directory entries descriptors ↔
      fd ∈ descriptors ∧ ¬(fd ∈ listedNumbers entries ∧ 4 ≤ fd ∧ fd ≠ directory) :=
  Finset.mem_filter

/-- The number in an entry, and zero for the two names that are not numbers. -/
def DirEntry.fd (entry : DirEntry) : Nat :=
  match entry.name with
  | .descriptor number => number
  | _ => 0

theorem mem_listedNumbers_cons
    {entry : DirEntry}
    {rest : List DirEntry}
    {fd : Nat}
    (high : 4 ≤ fd) :
    fd ∈ listedNumbers (entry :: rest) ↔ fd = entry.fd ∨ fd ∈ listedNumbers rest := by
  unfold listedNumbers DirEntry.fd
  cases named : entry.name with
  | descriptor number => simp [named]
  | dot =>
      simp only [named, List.filterMap_cons]
      exact ⟨.inr, fun listed => listed.resolve_left (by omega)⟩
  | dots =>
      simp only [named, List.filterMap_cons]
      exact ⟨.inr, fun listed => listed.resolve_left (by omega)⟩

/-- Induction over the entries: each one that is listed from 4 on is closed. -/
theorem survives_closeEntries
    {entries : List DirEntry}
    {rest : Bytes}
    {rounds offset : Nat}
    (position : batch.buffer.drop offset = entries.flatMap DirEntry.bytes ++ rest)
    (ends : offset + (entries.flatMap DirEntry.bytes).length = batch.count) :
    (closeEntries directory batch rounds offset).Survives DescriptorTable.Serves (fun _ => True)
      world fun _ after => after =
        { world with descriptors := keptAfter directory entries world.descriptors } := by
  induction rounds generalizing offset entries world with
  | zero => trivial
  | succ rounds inductionHypothesis =>
      unfold closeEntries
      cases entries with
      | nil =>
          rw [if_neg (by simp at ends; omega)]
          refine ⟨trivial, ?_⟩
          have all : keptAfter directory [] world.descriptors = world.descriptors := by
            ext fd
            simp [mem_keptAfter, listedNumbers]
          rw [all]
      | cons entry later =>
          rw [List.flatMap_cons, List.append_assoc] at position
          rw [List.flatMap_cons, List.length_append, DirEntry.length_bytes] at ends
          have positive : 0 < entry.size := by
            unfold DirEntry.size
            omega
          obtain ⟨reclen, fd⟩ := read_entry position
          have fd : entryFd batch.buffer offset = entry.fd := fd
          have next : batch.buffer.drop (offset + entry.size) =
              later.flatMap DirEntry.bytes ++ rest := by
            rw [← List.drop_drop, position, ← DirEntry.length_bytes, List.drop_left]
          rw [if_pos (by omega), if_neg (by omega)]
          change (do
            if 4 ≤ entryFd batch.buffer offset ∧ entryFd batch.buffer offset ≠ directory then
              perform (DescriptorCall.close (entryFd batch.buffer offset))
            else
              pure ()
            closeEntries directory batch rounds (offset + entryReclen batch.buffer offset) :
              Scrubbing Unit).Survives _ _ _ _
          rw [reclen, fd]
          by_cases closes : 4 ≤ entry.fd ∧ entry.fd ≠ directory
          · rw [if_pos closes]
            refine ⟨trivial, fun _ closed served => ?_⟩
            have served : closed = { world with
              descriptors := world.descriptors.erase entry.fd } := served
            refine (inductionHypothesis next (by omega)).mono ?_
            rintro result after _ rfl
            rw [served]
            congr 1
            ext fd
            rw [mem_keptAfter, mem_keptAfter, Finset.mem_erase]
            by_cases high : 4 ≤ fd
            · rw [mem_listedNumbers_cons high]
              by_cases same : fd = entry.fd
              · subst same
                simp [closes]
              · simp [same]
            · have low : fd ≠ entry.fd := by
                rintro rfl
                exact high closes.1
              simp [high, low]
          · rw [if_neg closes]
            refine (inductionHypothesis next (by omega)).mono ?_
            rintro result after _ rfl
            congr 1
            ext fd
            rw [mem_keptAfter, mem_keptAfter]
            by_cases high : 4 ≤ fd
            · rw [mem_listedNumbers_cons high]
              by_cases same : fd = entry.fd
              · subst same
                have own : entry.fd = directory := by
                  by_contra other
                  exact closes ⟨high, other⟩
                simp [own]
              · simp [same]
            · simp [high]

/-- The descriptors that the listing must leave open. -/
def Spared (directory fd : Nat) : Prop :=
  fd < 4 ∨ fd = directory

instance (directory : Nat) : DecidablePred (Spared directory) :=
  fun _ => inferInstanceAs (Decidable (_ ∨ _))

/-- Induction over the rounds: what has been listed is closed, unless it is spared. When the
listing ends, everything has been listed. -/
theorem survives_closeListed
    (rounds : Nat)
    (closed : ∀ fd ∈ world.descriptors, fd ∈ world.listed -> Spared directory fd) :
    (closeListed directory rounds).Survives DescriptorTable.Serves (fun _ => True) world
      fun result after => result = .ok () ->
        after.descriptors = world.descriptors.filter (Spared directory) := by
  induction rounds generalizing world with
  | zero => trivial
  | succ rounds inductionHypothesis =>
      refine ⟨trivial, ?_⟩
      rintro (code | batch) after served
      · have unchanged : after = world := served
        subst after
        change (if code = eintr then closeListed directory rounds else do
          perform (DescriptorCall.close directory)
          fail () : Scrubbing Unit).Survives _ _ _ _
        split
        · exact inductionHypothesis closed
        · exact ⟨trivial, fun _ _ _ => ⟨trivial, fun impossible => nomatch impossible⟩⟩
      · change (if batch.count = 0 then pure () else do
          closeEntries directory batch (batch.count + 1) 0
          closeListed directory rounds : Scrubbing Unit).Survives _ _ _ _
        rcases served with ⟨ended, complete, rfl⟩ | ⟨more, entries, ⟨length, held⟩, rfl⟩ |
          ⟨⟨offset, reaches, inside, zero⟩, rfl⟩
        · rw [if_pos ended]
          refine ⟨trivial, fun _ => ?_⟩
          rw [Finset.filter_true_of_mem fun fd member => closed fd member (complete fd member)]
        · rw [if_neg more]
          obtain ⟨rest, split⟩ := held
          refine Survives.bind (survives_closeEntries split.symm (by omega)) ?_ ?_
          · rintro ⟨⟩ walked _ rfl
            refine (inductionHypothesis ?_).mono ?_
            · intro fd remains listed
              obtain ⟨member, kept⟩ := mem_keptAfter.mp remains
              rcases List.mem_append.mp listed with earlier | now
              · exact closed fd member earlier
              · by_contra spared
                rw [Spared, not_or, Nat.not_lt] at spared
                exact kept ⟨now, spared⟩
            · intro result final _ complete returned
              rw [complete returned]
              ext fd
              rw [Finset.mem_filter, Finset.mem_filter, mem_keptAfter]
              constructor
              · exact fun remains => ⟨remains.1.1, remains.2⟩
              · rintro ⟨member, spared⟩
                refine ⟨⟨member, fun removed => ?_⟩, spared⟩
                rcases spared with low | own
                · omega
                · exact removed.2.2 own
          · exact fun error final _ impossible => nomatch impossible
        · rw [if_neg (by omega)]
          have roomy : batch.count < 0 + (batch.count + 1) := by omega
          have doomed := doomed_closeEntries directory reaches inside zero roomy
          refine ((doomed.bind _).survives after).mono ?_
          rintro result final _ rfl impossible
          cases impossible

/-- If the fallback returns 0, then the descriptors below 4 are as they were, and no others
are open. -/
theorem survives_closeByListing (rounds : Nat) :
    (closeByListing rounds).Survives DescriptorTable.Serves (fun _ => True) world
      fun result after => result = .ok () ->
        after.descriptors = world.descriptors.filter (· < 4) := by
  refine ⟨trivial, ?_⟩
  rintro (_ | directory) opened served
  · exact ⟨trivial, fun impossible => nomatch impossible⟩
  · obtain ⟨fresh, rfl⟩ := served
    change (do
      closeListed directory rounds
      perform (DescriptorCall.close directory) : Scrubbing Unit).Survives _ _ _ _
    refine Survives.bind (survives_closeListed rounds fun _ _ listed => nomatch listed) ?_ ?_
    · rintro ⟨⟩ listed _ complete
      refine ⟨trivial, fun _ after served => ⟨trivial, fun _ => ?_⟩⟩
      have served : after = { listed with
        descriptors := listed.descriptors.erase directory } := served
      rw [served]
      change listed.descriptors.erase directory = _
      rw [complete rfl]
      ext fd
      rw [Finset.mem_erase, Finset.mem_filter, Finset.mem_filter, Finset.mem_insert]
      constructor
      · rintro ⟨other, member, spared⟩
        exact ⟨member.resolve_left other, spared.resolve_right other⟩
      · rintro ⟨member, low⟩
        have other : fd ≠ directory := by
          rintro rfl
          exact fresh member
        exact ⟨other, .inr member, .inl low⟩
    · exact fun error final _ impossible => nomatch impossible

theorem survives_closeInheritedFds
    (hasCloseRange : Bool)
    (rounds : Nat) :
    (closeInheritedFds hasCloseRange rounds).Survives DescriptorTable.Serves (fun _ => True)
      world fun result after => result = .ok () ->
        after.descriptors = world.descriptors.filter (· < 4) := by
  unfold closeInheritedFds
  split
  · refine ⟨trivial, ?_⟩
    rintro (_ | _) after served
    · have unchanged : after = world := served
      subst after
      exact survives_closeByListing rounds
    · have served : after = { world with
        descriptors := world.descriptors.filter (· < 4) } := served
      rw [served]
      exact ⟨trivial, fun _ => rfl⟩
  · exact survives_closeByListing rounds

end Listing

/-! ## The child -/

/-- The value of a descriptor's name fits the type `int` at every digit. -/
theorem readDigits_fits
    {number : Nat}
    (fits : number < 2 ^ 31)
    {text : Bytes}
    (isPrefix : text <+: decimal number) :
    readDigits 0 text < 2 ^ 31 := by
  obtain ⟨more, whole⟩ := isPrefix
  have other : ¬((0x30 : UInt8) ≤ 0 ∧ (0 : UInt8) ≤ 0x39) := by decide
  have value := readDigits_decimal other number []
  rw [← whole, List.append_assoc] at value
  exact (readDigits_le_append 0 text _).trans_lt (value ▸ fits)

/-- A child whose descriptors are not closed exits and does not run the helper. -/
theorem becomeHelper_of_unclosed
    {helperFd : Helper.File}
    {execArgv : List Bytes}
    {trace : List PamEvent}
    {result : Except ChildEnd Nat}
    (ended : Ends (becomeHelper helperFd execArgv) trace result)
    (unclosed : (⟨.closeInheritedFds, false⟩ : PamEvent) ∈ trace) :
    result = .error (.exit 127) ∧
      ∀ event ∈ trace, ∀ arguments environment, event.call ≠ .execFd arguments environment := by
  unfold becomeHelper at ended
  obtain ⟨moved, afterMove, rfl, flagging⟩ := (ends_perform_bind _ _ _ _).mp ended
  cases moved with
  | false =>
      obtain ⟨rfl, _⟩ := (ends_done _ _ _).mp flagging
      simp at unclosed
  | true =>
      obtain ⟨flagged, afterFlag, rfl, closing⟩ := (ends_perform_bind _ _ _ _).mp flagging
      cases flagged with
      | false =>
          obtain ⟨rfl, _⟩ := (ends_done _ _ _).mp closing
          simp at unclosed
      | true =>
          obtain ⟨closed, afterClose, rfl, replacing⟩ := (ends_perform_bind _ _ _ _).mp closing
          cases closed with
          | false =>
              obtain ⟨rfl, exited⟩ := (ends_done _ _ _).mp replacing
              exact ⟨exited, by simp⟩
          | true =>
              obtain ⟨replaced, afterExec, rfl, leaving⟩ := (ends_perform_bind _ _ _ _).mp replacing
              have last : afterExec = [] := by
                cases replaced with
                | false => exact ((ends_done _ _ _).mp leaving).1
                | true => exact ((ends_done _ _ _).mp leaving).1
              simp [last] at unclosed

/-- If the descriptors are scrubbed with the result 0, then nothing from 4 on is open and
what is below is as it was. A failed listing has the result -1, with which the child exits. -/
theorem closeInheritedFds_complete
    (hasCloseRange : Bool)
    (rounds : Nat) :
    (∀ world trace after, Executes DescriptorTable.Serves (closeInheritedFds hasCloseRange rounds)
        world trace (.done (.ok ())) after ->
      after.descriptors = world.descriptors.filter (· < 4)) ∧
    (∀ trace rest, Steps (closeInheritedFds hasCloseRange rounds) trace rest ->
      (∃ event ∈ trace, ListingFails event) -> Doomed rest) ∧
    (∀ number < 2 ^ 31, ∀ text, text <+: decimal number -> readDigits 0 text < 2 ^ 31) ∧
    ∀ helperFd execArgv trace result, Ends (becomeHelper helperFd execArgv) trace result ->
      ⟨.closeInheritedFds, false⟩ ∈ trace -> result = .error (.exit 127) ∧
        ∀ event ∈ trace, ∀ arguments environment, event.call ≠ .execFd arguments environment :=
  ⟨fun _ _ _ executes =>
      ((survives_closeInheritedFds hasCloseRange rounds).executes executes).2 _ rfl rfl,
    fun _ _ => (stopsAfterFailure_closeInheritedFds hasCloseRange rounds).steps,
    fun _ fits _ => readDigits_fits fits,
    fun _ _ _ _ => becomeHelper_of_unclosed⟩

end Pam
end MacosAuth
