import MacosAuth.Effect.Total
import MacosAuth.Helper.Replay

/-!
# Which markers the cleanup removes

The replay cache is a directory of any contents. The cleanup lists it, skips what does not
have the name of a marker, and reads the first 128 bytes of the regular files that are left.
It removes those whose first line holds an expiry before the given time, and nothing else.
A marker that the helper has written is removed once its expiry has passed, and is not
removed while its number has not been written.
-/

namespace MacosAuth
namespace Helper

open Codec
open Protocol (utf8 SignedAuthResponse)
open Effect Effect.Program

/-! ## Expired markers -/

/-- The first line of the text is the label and a number below the time, which may have a
plus sign. -/
def ExpiredText (now : UInt64) (text : String) : Prop :=
  ∃ line sign digits : List Char,
    (lines text.toList).head? = some line ∧
    trim line = "expires_at_ms=".toList ++ (sign ++ digits) ∧
    (sign = [] ∨ sign = ['+']) ∧
    digits ≠ [] ∧ (∀ digit ∈ digits, digit.isDigit = true) ∧
    Nat.ofDigitChars 10 digits 0 < 2 ^ 64 ∧
    Nat.ofDigitChars 10 digits 0 < now.toNat

/-- The first 128 bytes are the text of an expired marker. -/
def ExpiredContents (now : UInt64) (contents : Bytes) : Prop :=
  ∃ text, decodeUtf8 (contents.take 128) = some text ∧ ExpiredText now text

/-- Names of 64 hexadecimal digits. -/
def IsMarkerName (name : Bytes) : Prop :=
  name.length = 64 ∧ name.all isHexDigit = true

instance (name : Bytes) : Decidable (IsMarkerName name) :=
  inferInstanceAs (Decidable (_ ∧ _))

/-- What follows an optional plus sign. -/
def withoutSign (text : List Char) : List Char :=
  match text with
  | '+' :: rest => rest
  | _ => text

theorem sign_append_withoutSign (text : List Char) :
    ∃ sign, text = sign ++ withoutSign text ∧ (sign = [] ∨ sign = ['+']) := by
  unfold withoutSign
  split
  · exact ⟨['+'], rfl, .inr rfl⟩
  · exact ⟨[], rfl, .inl rfl⟩

/-- Digits with a value below the bound of the type. -/
def IsNumeral (digits : List Char) : Prop :=
  digits ≠ [] ∧ (∀ digit ∈ digits, digit.isDigit = true) ∧
    Nat.ofDigitChars 10 digits 0 < 2 ^ 64

theorem withoutSign_of_numeral
    {digits : List Char}
    (numeral : IsNumeral digits) :
    withoutSign digits = digits := by
  cases digits with
  | nil => rfl
  | cons first rest =>
      have noSign : first ≠ '+' := by
        rintro rfl
        exact absurd (numeral.2.1 '+' List.mem_cons_self) (by decide)
      unfold withoutSign
      split
      · rename_i rest plus
        exact absurd (List.cons.inj plus).1 noSign
      · rfl

theorem parseU64_eq_some_iff
    {text : List Char}
    {value : UInt64} :
    parseU64 text = some value ↔
      IsNumeral (withoutSign text) ∧
        value = UInt64.ofNat (Nat.ofDigitChars 10 (withoutSign text) 0) := by
  change (if withoutSign text = [] ∨ (withoutSign text).all Char.isDigit = false then none
    else if Nat.ofDigitChars 10 (withoutSign text) 0 < UInt64.size then
      some (UInt64.ofNat (Nat.ofDigitChars 10 (withoutSign text) 0)) else none) = some value ↔ _
  generalize withoutSign text = digits
  have size : UInt64.size = 2 ^ 64 := rfl
  unfold IsNumeral
  by_cases bad : digits = [] ∨ digits.all Char.isDigit = false
  · rw [if_pos bad]
    constructor
    · exact fun impossible => nomatch impossible
    · rintro ⟨⟨nonempty, allDigits, _⟩, _⟩
      rcases bad with empty | other
      · exact absurd empty nonempty
      · exact absurd (List.all_eq_true.mpr allDigits) (by simp [other])
  · rw [if_neg bad]
    have good := not_or.mp bad
    have allDigits : ∀ digit ∈ digits, digit.isDigit = true := by
      simpa using good.2
    by_cases small : Nat.ofDigitChars 10 digits 0 < UInt64.size
    · rw [if_pos small, Option.some.injEq]
      constructor
      · rintro rfl
        exact ⟨⟨good.1, allDigits, small⟩, rfl⟩
      · rintro ⟨_, rfl⟩
        rfl
    · rw [if_neg small]
      constructor
      · exact fun impossible => nomatch impossible
      · rintro ⟨⟨_, _, bound⟩, _⟩
        exact absurd bound small

theorem parseExpiresAtMs_eq_some_iff
    {text : String}
    {expiry : UInt64} :
    parseExpiresAtMs text = some expiry ↔
      ∃ line value, (lines text.toList).head? = some line ∧
        trim line = "expires_at_ms=".toList ++ value ∧ parseU64 value = some expiry := by
  simp only [parseExpiresAtMs, Option.bind_eq_bind, Option.bind_eq_some_iff,
    List.isPrefixOf?_eq_some_iff_append_eq]
  constructor
  · rintro ⟨line, first, value, stripped, parsed⟩
    exact ⟨line, value, first, stripped.symm, parsed⟩
  · rintro ⟨line, value, first, stripped, parsed⟩
    exact ⟨line, first, value, stripped.symm, parsed⟩

/-- The check of the cleanup finds the texts of expired markers. -/
theorem parseExpiresAtMs_expired_iff {now : UInt64} {text : String} :
    ((parseExpiresAtMs text).any fun expiry => expiry < now) = true ↔ ExpiredText now text := by
  simp only [Option.any_eq_true, decide_eq_true_eq, parseExpiresAtMs_eq_some_iff,
    parseU64_eq_some_iff, UInt64.lt_iff_toNat_lt]
  constructor
  · rintro ⟨_, ⟨line, value, first, labelled, numeral, rfl⟩, early⟩
    have small := numeral.2.2
    rw [UInt64.toNat_ofNat', Nat.mod_eq_of_lt small] at early
    obtain ⟨sign, split, signed⟩ := sign_append_withoutSign value
    refine ⟨line, sign, withoutSign value, first, ?_, signed, numeral.1, numeral.2.1, small,
      early⟩
    rw [← split]
    exact labelled
  · rintro ⟨line, sign, digits, first, labelled, signed, nonempty, allDigits, small, early⟩
    have numeral : IsNumeral digits := ⟨nonempty, allDigits, small⟩
    have unsigned : withoutSign (sign ++ digits) = digits := by
      rcases signed with rfl | rfl
      · exact withoutSign_of_numeral numeral
      · rfl
    refine ⟨_, ⟨line, sign ++ digits, first, labelled, ?_, rfl⟩, ?_⟩
    · rw [unsigned]
      exact numeral
    · rw [unsigned, UInt64.toNat_ofNat', Nat.mod_eq_of_lt small]
      exact early

/-! ## The cache directory -/

/-- What a name of a directory stands for. -/
inductive Node
  | regular (contents : Bytes)
  | symlink
  | directory
  | special

def Node.isRegular : Node -> Bool
  | .regular _ => true
  | _ => false

theorem Node.isRegular_iff {node : Node} :
    node.isRegular = true ↔ ∃ contents, node = .regular contents := by
  cases node <;> simp [isRegular]

/-- The cache directory, and the stream in which it is being listed. -/
structure MarkerDirectory where
  entries : Bytes -> Option File
  nodes : File -> Node
  /-- The names in the order in which the directory is listed. -/
  listing : List Bytes
  pending : List Bytes
  /-- The next inode to be used. -/
  next : File

/-- How the directory answers, as long as no call fails without a reason. Symbolic links
are not followed. A read returns what comes next, and nothing at the end of the file only. -/
def MarkerDirectory.Serves (world : MarkerDirectory) :
    (request : Call) -> request.Answer -> MarkerDirectory -> Prop
  | .wallClock, some _, after => after = world
  | .opendir _, .ok _, after => after = { world with pending := world.listing }
  | .readdir _, some name, after =>
      ∃ rest, world.pending = name :: rest ∧ after = { world with pending := rest }
  | .readdir _, none, after => world.pending = [] ∧ after = world
  | .openat _ name _, .ok file, after =>
      world.entries name = some file ∧ world.nodes file ≠ .symlink ∧ after = world
  | .openat _ name _, .error _, after =>
      (∀ file, world.entries name = some file ->
        world.nodes file = .symlink ∨ world.nodes file = .special) ∧ after = world
  | .fstat file, .ok metadata, after =>
      metadata.isFile = (world.nodes file).isRegular ∧ after = world
  | .read file position limit, .ok chunk, after =>
      (∃ contents, world.nodes file = .regular contents ∧
        chunk.val <+: (contents.drop position).take limit ∧
        (chunk.val = [] -> (contents.drop position).take limit = [])) ∧ after = world
  | .unlinkat _ name, _, after =>
      after = { world with entries := Function.update world.entries name none }
  | .createat _ name, .created file, after =>
      world.entries name = none ∧ file = world.next ∧
        after = { world with
          entries := Function.update world.entries name (some file)
          nodes := Function.update world.nodes file (.regular [])
          next := file + 1 }
  | .createat _ name, .alreadyExists, after => world.entries name ≠ none ∧ after = world
  | .createat _ _, .failed _, after => after = world
  | .write file bytes, .ok count, after =>
      ∃ contents, world.nodes file = .regular contents ∧
        after = { world with
          nodes := Function.update world.nodes file (.regular (contents ++ bytes.take count)) }
  | .write _ _, .error _, after => after = world
  | _, _, _ => False

/-- A regular file with the name and the contents of an expired marker. -/
def MarkerDirectory.Expired (world : MarkerDirectory) (now : UInt64) (name : Bytes) : Prop :=
  IsMarkerName name ∧ ∃ file contents, world.entries name = some file ∧
    world.nodes file = .regular contents ∧ ExpiredContents now contents

/-! ## One entry -/

section Cleanup

variable {world : MarkerDirectory} {directory file : File} {contents : Bytes}

/-- A prefix of the length that is asked for is all that is asked for. -/
theorem eq_take_of_isPrefix
    {limit : Nat}
    {gathered : Bytes}
    (isPrefix : gathered <+: contents.take limit)
    (long : limit ≤ gathered.length) :
    gathered = contents.take limit := by
  refine isPrefix.eq_of_length_le ?_
  rw [List.length_take]
  omega

/-- Induction over the rounds: what has been gathered is a prefix of the file, and each
round adds to it, so there are enough rounds. -/
theorem achieves_readUpTo
    (regular : world.nodes file = .regular contents)
    (limit left : Nat)
    {gathered : Bytes}
    (isPrefix : gathered <+: contents.take limit)
    (enough : limit ≤ gathered.length + left) :
    (readUpTo file limit left gathered).Achieves MarkerDirectory.Serves world fun result after =>
      after = world ∧ result = .ok (contents.take limit) := by
  induction left generalizing gathered with
  | zero => exact ⟨rfl, congrArg Except.ok (eq_take_of_isPrefix isPrefix (by omega))⟩
  | succ left inductionHypothesis =>
      unfold readUpTo
      by_cases long : limit ≤ gathered.length
      · rw [if_pos long]
        exact ⟨rfl, congrArg Except.ok (eq_take_of_isPrefix isPrefix long)⟩
      · rw [if_neg long]
        obtain ⟨missing, split⟩ := isPrefix
        have remaining : (contents.drop gathered.length).take (limit - gathered.length) =
            missing := by
          rw [← List.drop_take, ← split, List.drop_left]
        refine ⟨⟨.ok ⟨_, List.length_take_le _ _⟩, world, ⟨contents, regular, List.prefix_rfl, id⟩,
          rfl⟩, ?_⟩
        rintro (code | ⟨chunk, short⟩) after served
        · exact served.elim
        · obtain ⟨⟨found, same, comes, ends⟩, rfl⟩ := served
          obtain rfl := Node.regular.inj (regular.symm.trans same)
          rw [remaining] at comes ends
          change (if chunk = [] then pure gathered
            else readUpTo file limit left (gathered ++ chunk) : Routine IoError Bytes).Achieves
              _ _ _
          by_cases empty : chunk = []
          · rw [if_pos empty]
            refine ⟨rfl, congrArg Except.ok ?_⟩
            rw [← split, ends empty, List.append_nil]
          · rw [if_neg empty]
            have positive := List.length_pos_of_ne_nil empty
            refine inductionHypothesis ?_ ?_
            · rw [← split]
              exact (List.prefix_append_right_inj gathered).mpr comes
            · rw [List.length_append]
              omega

/-- The first bytes are decoded. -/
theorem achieves_readToString
    (regular : world.nodes file = .regular contents)
    (limit : Nat) :
    (readToString file limit).Achieves MarkerDirectory.Serves world fun result after =>
      after = world ∧ ∀ text, result = .ok text ↔ decodeUtf8 (contents.take limit) = some text := by
  unfold readToString
  refine Achieves.bind (achieves_readUpTo regular limit limit List.nil_prefix (by simp)) ?_ ?_
  · rintro bytes after ⟨rfl, equal⟩
    obtain rfl := Except.ok.inj equal
    cases decodeUtf8 (contents.take limit) with
    | none => exact ⟨rfl, fun text => by simp⟩
    | some decoded => exact ⟨rfl, fun text => by simp⟩
  · rintro error after ⟨_, impossible⟩
    cases impossible

/-- One entry with the name of a marker is removed if it has expired. -/
theorem achieves_cleanupMarker
    {marker : Bytes}
    (isMarker : IsMarkerName marker)
    (now : UInt64) :
    (Trust.cleanupMarker directory now marker).Achieves MarkerDirectory.Serves world
      fun result after => result = .ok () ∧
        (world.Expired now marker ->
          after = { world with entries := Function.update world.entries marker none }) ∧
        (¬world.Expired now marker -> after = world) := by
  refine ⟨?_, ?_⟩
  · by_cases opens : ∃ file, world.entries marker = some file ∧ world.nodes file ≠ .symlink
    · obtain ⟨file, named, target⟩ := opens
      exact ⟨.ok file, world, named, target, rfl⟩
    · refine ⟨.error 2, world, fun file named => .inl ?_, rfl⟩
      by_contra target
      exact opens ⟨file, named, target⟩
  rintro (code | file) after served
  · obtain ⟨others, unchanged⟩ := served
    refine ⟨rfl, fun expired => ?_, fun _ => unchanged⟩
    obtain ⟨_, file, contents, named, regular, _⟩ := expired
    rcases others file named with link | special
    · cases link.symm.trans regular
    · cases special.symm.trans regular
  obtain ⟨named, target, unchanged⟩ := served
  subst after
  refine ⟨⟨.ok ⟨false, (world.nodes file).isRegular, 0, 0⟩, world, rfl, rfl⟩, ?_⟩
  rintro (code | metadata) after served
  · exact served.elim
  obtain ⟨kind, unchanged⟩ := served
  subst after
  change (if metadata.isFile then _ else pure () : Routine IoError Unit).Achieves _ _ _
  by_cases isFile : metadata.isFile = true
  · rw [if_pos isFile]
    obtain ⟨contents, regular⟩ := Node.isRegular_iff.mp (kind.symm.trans isFile)
    have expired_iff : world.Expired now marker ↔ ExpiredContents now contents := by
      constructor
      · rintro ⟨_, other, otherContents, otherNamed, otherRegular, expired⟩
        obtain rfl := Option.some.inj (named.symm.trans otherNamed)
        obtain rfl := Node.regular.inj (regular.symm.trans otherRegular)
        exact expired
      · exact fun expired => ⟨isMarker, file, contents, named, regular, expired⟩
    refine Achieves.attempt_bind (achieves_readToString regular 128) ?_
    rintro (error | text) after ⟨unchanged, decodes⟩
    · refine ⟨rfl, fun expired => ?_, fun _ => unchanged⟩
      obtain ⟨text, decoded, _⟩ := expired_iff.mp expired
      cases (decodes text).mpr decoded
    · subst after
      have decoded : decodeUtf8 (contents.take 128) = some text := (decodes text).mp rfl
      have text_iff : ExpiredContents now contents ↔ ExpiredText now text := by
        constructor
        · rintro ⟨other, otherDecoded, expired⟩
          obtain rfl := Option.some.inj (decoded.symm.trans otherDecoded)
          exact expired
        · exact fun expired => ⟨text, decoded, expired⟩
      change (if (parseExpiresAtMs text).any fun expiry => expiry < now then
          perform (Call.unlinkat directory marker)
        else
          pure () : Routine IoError Unit).Achieves _ _ _
      by_cases early : ((parseExpiresAtMs text).any fun expiry => expiry < now) = true
      · rw [if_pos early]
        have expired : world.Expired now marker :=
          expired_iff.mpr (text_iff.mpr (parseExpiresAtMs_expired_iff.mp early))
        refine ⟨⟨(), _, rfl⟩, fun _ after served => ?_⟩
        exact ⟨rfl, fun _ => served, fun live => absurd expired live⟩
      · rw [if_neg early]
        refine ⟨rfl, fun expired => ?_, fun _ => rfl⟩
        exact absurd (parseExpiresAtMs_expired_iff.mpr (text_iff.mp (expired_iff.mp expired))) early
  · rw [if_neg isFile]
    refine ⟨rfl, fun expired => ?_, fun _ => rfl⟩
    obtain ⟨_, other, contents, otherNamed, regular, _⟩ := expired
    obtain rfl := Option.some.inj (named.symm.trans otherNamed)
    exact absurd (kind.trans (Node.isRegular_iff.mpr ⟨contents, regular⟩)) isFile

/-! ## The whole directory -/

/-- The expired markers among the names are gone, and nothing else has changed. -/
def MarkerDirectory.Cleaned
    (before after : MarkerDirectory)
    (now : UInt64)
    (names : List Bytes) : Prop :=
  after.nodes = before.nodes ∧ after.listing = before.listing ∧ after.next = before.next ∧
    (∀ name ∈ names, before.Expired now name -> after.entries name = none) ∧
    ∀ name, ¬(name ∈ names ∧ before.Expired now name) ->
      after.entries name = before.entries name

theorem achieves_cleanupEntry
    (entry : Bytes)
    (now : UInt64) :
    (Trust.cleanupEntry directory now entry).Achieves MarkerDirectory.Serves world
      fun result after => result = .ok () ∧ after.pending = world.pending ∧
        world.Cleaned after now [entry] := by
  unfold Trust.cleanupEntry
  by_cases isMarker : IsMarkerName entry
  · rw [if_pos ⟨isMarker.1, isMarker.2⟩]
    refine (achieves_cleanupMarker isMarker now).mono ?_
    rintro result after ⟨ended, removed, kept⟩
    by_cases expired : world.Expired now entry
    · rw [removed expired]
      refine ⟨ended, rfl, rfl, rfl, rfl, ?_, ?_⟩
      · intro name member _
        rw [List.mem_singleton.mp member]
        exact Function.update_self ..
      · intro name other
        refine Function.update_of_ne ?_ _ _
        rintro rfl
        exact other ⟨List.mem_singleton.mpr rfl, expired⟩
    · rw [kept expired]
      refine ⟨ended, rfl, rfl, rfl, rfl, ?_, fun _ _ => rfl⟩
      intro name member isExpired
      rw [List.mem_singleton.mp member] at isExpired
      exact absurd isExpired expired
  · rw [if_neg (show ¬(entry.length = 64 ∧ entry.all isHexDigit = true) from isMarker)]
    refine ⟨rfl, rfl, rfl, rfl, rfl, ?_, fun _ _ => rfl⟩
    intro name member expired
    rw [List.mem_singleton.mp member] at expired
    exact absurd expired.1 isMarker

/-- Removing some markers does not make others expire. -/
theorem MarkerDirectory.Cleaned.expired_iff
    {before after : MarkerDirectory}
    {now : UInt64}
    {names : List Bytes}
    {name : Bytes}
    (cleaned : before.Cleaned after now names)
    (other : ¬(name ∈ names ∧ before.Expired now name)) :
    after.Expired now name ↔ before.Expired now name := by
  obtain ⟨nodes, _, _, _, kept⟩ := cleaned
  unfold MarkerDirectory.Expired
  rw [nodes, kept name other]

theorem MarkerDirectory.Cleaned.cons
    {before middle after : MarkerDirectory}
    {now : UInt64}
    {entry : Bytes}
    {rest : List Bytes}
    (first : before.Cleaned middle now [entry])
    (others : middle.Cleaned after now rest) :
    before.Cleaned after now (entry :: rest) := by
  have missing : ∀ name, middle.entries name = none -> after.entries name = none := by
    intro name gone
    rw [others.2.2.2.2 name, gone]
    rintro ⟨_, _, file, _, named, _⟩
    cases gone.symm.trans named
  refine ⟨others.1.trans first.1, others.2.1.trans first.2.1, others.2.2.1.trans first.2.2.1,
    ?_, ?_⟩
  · intro name member expired
    by_cases same : name = entry
    · exact missing name (first.2.2.2.1 name (List.mem_singleton.mpr same) expired)
    · have later : name ∈ rest := List.mem_of_ne_of_mem same member
      have kept : ¬(name ∈ [entry] ∧ before.Expired now name) := fun both =>
        same (List.mem_singleton.mp both.1)
      exact others.2.2.2.1 name later ((first.expired_iff kept).mpr expired)
  · intro name other
    have keptFirst : ¬(name ∈ [entry] ∧ before.Expired now name) := fun both =>
      other ⟨List.mem_singleton.mp both.1 ▸ List.mem_cons_self, both.2⟩
    have keptLater : ¬(name ∈ rest ∧ middle.Expired now name) := fun both =>
      other ⟨List.mem_cons_of_mem _ both.1, (first.expired_iff keptFirst).mp both.2⟩
    exact (others.2.2.2.2 name keptLater).trans (first.2.2.2.2 name keptFirst)

/-- Induction over the names that are still to be listed. -/
theorem achieves_cleanupLoop
    (now : UInt64)
    (rounds : Nat)
    (enough : world.pending.length < rounds) :
    (Trust.cleanupLoop directory now rounds).Achieves MarkerDirectory.Serves world
      fun result after => result = .ok () ∧ world.Cleaned after now world.pending := by
  induction rounds generalizing world with
  | zero => omega
  | succ rounds inductionHypothesis =>
      unfold Trust.cleanupLoop
      refine ⟨?_, ?_⟩
      · cases listed : world.pending with
        | nil => exact ⟨none, world, listed, rfl⟩
        | cons name rest => exact ⟨some name, _, rest, listed, rfl⟩
      rintro (_ | entry) middle served
      · obtain ⟨listed, unchanged⟩ := served
        subst middle
        refine ⟨rfl, rfl, rfl, rfl, ?_, fun _ _ => rfl⟩
        rw [listed]
        exact fun name member => absurd member List.not_mem_nil
      · obtain ⟨rest, listed, unchanged⟩ := served
        subst middle
        rw [listed] at enough ⊢
        change (do
          Trust.cleanupEntry directory now entry
          Trust.cleanupLoop directory now rounds : Routine IoError Unit).Achieves _ _ _
        refine Achieves.bind (achieves_cleanupEntry entry now) ?_ ?_
        · rintro ⟨⟩ cleaned ⟨_, pending, first⟩
          have pending : cleaned.pending = rest := pending
          have fewer : cleaned.pending.length < rounds := by
            rw [pending]
            exact Nat.lt_of_succ_lt_succ enough
          refine (inductionHypothesis fewer).mono ?_
          rintro result after ⟨ended, others⟩
          rw [pending] at others
          exact ⟨ended, MarkerDirectory.Cleaned.cons first others⟩
        · rintro error after ⟨impossible, _⟩
          cases impossible

/-- The cleanup removes the expired markers, and nothing else changes. -/
theorem achieves_cleanupMarkers
    (now : UInt64)
    (rounds : Nat)
    (listed : ∀ name, world.entries name ≠ none -> name ∈ world.listing)
    (enough : world.listing.length < rounds) :
    (Trust.cleanupMarkers directory now rounds).Achieves MarkerDirectory.Serves world
      fun result after => result = .ok () ∧ after.nodes = world.nodes ∧
        (∀ name, world.Expired now name -> after.entries name = none) ∧
        ∀ name, ¬world.Expired now name -> after.entries name = world.entries name := by
  refine ⟨⟨.ok (), _, rfl⟩, ?_⟩
  rintro (code | ⟨⟩) opened served
  · exact served.elim
  · have opened : opened = { world with pending := world.listing } := served
    subst opened
    refine (achieves_cleanupLoop now rounds enough).mono ?_
    rintro result after ⟨ended, nodes, _, _, removed, kept⟩
    refine ⟨ended, nodes, fun name expired => ?_, fun name live => ?_⟩
    · obtain ⟨_, file, _, named, _⟩ := id expired
      exact removed name (listed name (by simp [named])) expired
    · exact kept name fun both => live both.2

end Cleanup

/-! ## The markers of the helper -/

/-- What a marker holds once it has been written. -/
def markerLine (expiresAtMs : UInt64) : Bytes :=
  (markerPieces expiresAtMs).flatMap utf8

theorem expiredText_iff_of_parse
    {now expiresAtMs : UInt64}
    {text : String}
    (parsed : parseExpiresAtMs text = some expiresAtMs) :
    ExpiredText now text ↔ expiresAtMs < now := by
  rw [← parseExpiresAtMs_expired_iff, parsed]
  simp

/-- With and without the end of its line, a marker has expired when its time has passed. -/
theorem expiredContents_take_iff
    (now expiresAtMs : UInt64)
    {count : Nat}
    (numbered : 2 ≤ count) :
    ExpiredContents now (((markerPieces expiresAtMs).take count).flatMap utf8) ↔
      expiresAtMs < now := by
  have short : (((markerPieces expiresAtMs).take count).flatMap utf8).length ≤ 128 :=
    MarkerText.length_le ⟨count, rfl⟩
  unfold ExpiredContents
  rw [List.take_of_length_le short, flatMap_take_markerPieces, decodeUtf8_utf8]
  have parsed : parseExpiresAtMs (String.join ((markerPieces expiresAtMs).take count)) =
      some expiresAtMs := by
    match count with
    | 2 => simpa [markerPieces, String.join] using (parseExpiresAtMs_number expiresAtMs).1
    | count + 3 => simpa [markerPieces, String.join] using (parseExpiresAtMs_number expiresAtMs).2
  rw [← expiredText_iff_of_parse parsed]
  constructor
  · rintro ⟨text, decoded, expired⟩
    obtain rfl := Option.some.inj decoded
    exact expired
  · exact fun expired => ⟨_, rfl, expired⟩

/-- A marker without its number has no expiry. -/
theorem not_expiredContents_label
    (now : UInt64)
    {written : Bytes}
    (isPrefix : written <+: utf8 "expires_at_ms=") :
    ¬ExpiredContents now written := by
  have unparsed : ∀ count : Fin 15,
      (decodeUtf8 ((utf8 "expires_at_ms=").take count)).bind parseExpiresAtMs = none := by
    decide
  have labelLength : (utf8 "expires_at_ms=").length = 14 := by decide
  have short := isPrefix.length_le
  rintro ⟨text, decoded, expired⟩
  rw [List.take_of_length_le (by omega), List.prefix_iff_eq_take.mp isPrefix] at decoded
  have none : parseExpiresAtMs text = none := by
    have unread := unparsed ⟨written.length, by omega⟩
    rw [decoded] at unread
    exact unread
  have expired := parseExpiresAtMs_expired_iff.mpr expired
  rw [none] at expired
  exact absurd expired (by simp)

section Recording

variable {world : MarkerDirectory} {marker : Bytes} {expiresAtMs : UInt64} {file : File}

/-- The marker is missing, or holds what has been written of its line. -/
def MarkerDirectory.Grows
    (world : MarkerDirectory)
    (marker : Bytes)
    (expiresAtMs : UInt64) : Prop :=
  ∀ file, world.entries marker = some file ->
    ∃ contents, world.nodes file = .regular contents ∧ contents <+: markerLine expiresAtMs

/-- The marker is the file with the contents. -/
def MarkerDirectory.Holds
    (world : MarkerDirectory)
    (marker : Bytes)
    (file : File)
    (contents : Bytes) : Prop :=
  world.entries marker = some file ∧ world.nodes file = .regular contents

theorem MarkerDirectory.Holds.grows
    {contents : Bytes}
    (holds : world.Holds marker file contents)
    (isPrefix : contents <+: markerLine expiresAtMs) :
    world.Grows marker expiresAtMs := by
  intro other named
  obtain rfl := Option.some.inj (holds.1.symm.trans named)
  exact ⟨contents, holds.2, isPrefix⟩

/-- Induction over the rounds: each one appends some bytes. -/
theorem survives_writeAll
    (left : Nat)
    {contents bytes : Bytes}
    (holds : world.Holds marker file contents)
    (isPrefix : contents ++ bytes <+: markerLine expiresAtMs) :
    (writeAll (writeFile file) left bytes).Survives MarkerDirectory.Serves
      (fun world => world.Grows marker expiresAtMs) world fun result after =>
        result = .ok () -> bytes.length ≤ left -> after.Holds marker file (contents ++ bytes) := by
  have grows : world.Grows marker expiresAtMs :=
    holds.grows ((List.prefix_append contents bytes).trans isPrefix)
  induction left generalizing world contents bytes with
  | zero =>
      refine ⟨grows, fun _ empty => ?_⟩
      rw [List.length_eq_zero_iff.mp (Nat.le_zero.mp empty), List.append_nil]
      exact holds
  | succ left inductionHypothesis =>
      unfold writeAll
      by_cases empty : bytes = []
      · rw [if_pos empty]
        refine ⟨grows, fun _ _ => ?_⟩
        rw [empty, List.append_nil]
        exact holds
      · rw [if_neg empty]
        refine ⟨grows, ?_⟩
        rintro (code | count) after served
        · have unchanged : after = world := served
          subst after
          exact ⟨grows, fun impossible => by cases impossible⟩
        · obtain ⟨found, same, written⟩ := served
          obtain rfl := Node.regular.inj (holds.2.symm.trans same)
          have appended : after.Holds marker file (contents ++ bytes.take count) := by
            rw [written]
            exact ⟨holds.1, Function.update_self ..⟩
          have remaining : contents ++ bytes.take count ++ bytes.drop count <+:
              markerLine expiresAtMs := by
            rw [List.append_assoc, List.take_append_drop]
            exact isPrefix
          have stillGrows : after.Grows marker expiresAtMs :=
            appended.grows ((List.prefix_append _ _).trans remaining)
          change (if count.val = 0 then fail .writeZero
            else writeAll (writeFile file) left (bytes.drop count) : Routine IoError Unit).Survives
              _ _ _ _
          by_cases zero : count.val = 0
          · rw [if_pos zero]
            exact ⟨stillGrows, fun impossible => by cases impossible⟩
          · rw [if_neg zero]
            refine (inductionHypothesis appended remaining stillGrows).mono ?_
            intro result final _ complete ended enough
            have fits : (bytes.drop count).length ≤ left := by
              rw [List.length_drop]
              omega
            have whole := complete ended fits
            rw [List.append_assoc, List.take_append_drop] at whole
            exact whole

/-- Induction over the pieces of the line. -/
theorem survives_writePieces
    (pieces : List String)
    {contents : Bytes}
    (holds : world.Holds marker file contents)
    (isPrefix : contents ++ pieces.flatMap utf8 <+: markerLine expiresAtMs) :
    (writePieces file pieces).Survives MarkerDirectory.Serves
      (fun world => world.Grows marker expiresAtMs) world fun result after =>
        result = .ok () -> after.Holds marker file (contents ++ pieces.flatMap utf8) := by
  induction pieces generalizing world contents with
  | nil =>
      refine ⟨holds.grows ((List.prefix_append _ _).trans isPrefix), fun _ => ?_⟩
      rw [List.flatMap_nil, List.append_nil]
      exact holds
  | cons piece rest inductionHypothesis =>
      unfold writePieces
      rw [List.flatMap_cons, ← List.append_assoc] at isPrefix ⊢
      refine Survives.bind (survives_writeAll _ holds ((List.prefix_append _ _).trans isPrefix))
        ?_ fun error after _ impossible => by cases impossible
      rintro ⟨⟩ after _ written
      exact inductionHypothesis (written rfl le_rfl) isPrefix

/-- Calls that neither create nor write a file. -/
def Removes : Call -> Prop
  | .createat _ _ => False
  | .write _ _ => False
  | _ => True

theorem within_readUpTo
    (limit left : Nat)
    (gathered : Bytes) :
    (readUpTo file limit left gathered).Within Removes := by
  induction left generalizing gathered with
  | zero => trivial
  | succ left inductionHypothesis =>
      unfold readUpTo
      split
      · trivial
      · refine ⟨trivial, ?_⟩
        rintro (code | chunk)
        · trivial
        · change (if chunk.val = [] then pure gathered
            else readUpTo file limit left (gathered ++ chunk.val) : Routine IoError Bytes).Within _
          split
          · trivial
          · exact inductionHypothesis _

theorem within_cleanupMarker
    (directory : File)
    (now : UInt64)
    (marker : Bytes) :
    (Trust.cleanupMarker directory now marker).Within Removes := by
  refine ⟨trivial, ?_⟩
  rintro (code | file)
  · trivial
  refine ⟨trivial, ?_⟩
  rintro (code | metadata)
  · trivial
  change (if metadata.isFile then _ else pure () : Routine IoError Unit).Within _
  split
  · refine Within.bind (Within.attempt (Within.bind (within_readUpTo 128 128 []) ?_)) ?_
    · intro bytes
      cases decodeUtf8 bytes <;> trivial
    · rintro (error | text)
      · trivial
      · change (if (parseExpiresAtMs text).any fun expiry => expiry < now then
            perform (Call.unlinkat directory marker)
          else
            pure () : Routine IoError Unit).Within _
        split
        · exact within_perform trivial
        · trivial
  · trivial

theorem within_cleanupLoop
    (directory : File)
    (now : UInt64)
    (rounds : Nat) :
    (Trust.cleanupLoop directory now rounds).Within Removes := by
  induction rounds with
  | zero => trivial
  | succ rounds inductionHypothesis =>
      refine ⟨trivial, ?_⟩
      rintro (_ | entry)
      · trivial
      · change (do
          Trust.cleanupEntry directory now entry
          Trust.cleanupLoop directory now rounds : Routine IoError Unit).Within _
        refine Within.bind ?_ fun _ => inductionHypothesis
        unfold Trust.cleanupEntry
        split
        · exact within_cleanupMarker directory now entry
        · trivial

/-- The cleanup creates nothing and writes nothing. -/
theorem within_cleanupMarkers
    (directory : File)
    (now : UInt64)
    (rounds : Nat) :
    (Trust.cleanupMarkers directory now rounds).Within Removes := by
  refine ⟨trivial, ?_⟩
  rintro (code | ⟨⟩)
  · trivial
  · exact within_cleanupLoop directory now rounds

/-- A name stays missing. -/
theorem missing_of_removes
    {before after : MarkerDirectory}
    {request : Call}
    {answer : request.Answer}
    (removes : Removes request)
    (missing : before.entries marker = none)
    (served : before.Serves request answer after) :
    after.entries marker = none := by
  cases request with
  | createat directory name => exact removes.elim
  | write file bytes => exact removes.elim
  | unlinkat directory name =>
      have unlinked : after = { before with
        entries := Function.update before.entries name none } := served
      rw [unlinked]
      by_cases same : marker = name
      · rw [same]
        exact Function.update_self ..
      · exact (Function.update_of_ne same _ _).trans missing
  | wallClock =>
      cases answer with
      | none => exact served.elim
      | some now => exact (show after = before from served) ▸ missing
  | opendir directory =>
      cases answer with
      | error code => exact served.elim
      | ok opened =>
          have opened : after = { before with pending := before.listing } := served
          rw [opened]
          exact missing
  | readdir directory =>
      cases answer with
      | none => exact served.2 ▸ missing
      | some name =>
          obtain ⟨rest, _, unchanged⟩ := served
          rw [unchanged]
          exact missing
  | openat directory name onlyDirectory =>
      cases answer with
      | error code => exact served.2 ▸ missing
      | ok file => exact served.2.2 ▸ missing
  | fstat file =>
      cases answer with
      | error code => exact served.elim
      | ok metadata => exact served.2 ▸ missing
  | read file position limit =>
      cases answer with
      | error code => exact served.elim
      | ok chunk => exact served.2 ▸ missing
  | _ => exact served.elim

/-- The creation makes an empty file. -/
theorem survives_createMarker
    (directory : File)
    (missing : world.entries marker = none) :
    (Trust.createMarker directory marker).Survives MarkerDirectory.Serves
      (fun world => world.Grows marker expiresAtMs) world fun result after =>
        ∀ file, result = .ok file -> after.Holds marker file [] := by
  have grows : world.Grows marker expiresAtMs := fun file named =>
    absurd (missing.symm.trans named) (Option.some_ne_none file).symm
  unfold Trust.createMarker Trust.name
  split
  · exact ⟨grows, fun file impossible => by cases impossible⟩
  · refine ⟨grows, ?_⟩
    rintro (created | _ | code) after served
    · obtain ⟨_, rfl, made⟩ := served
      have holds : after.Holds marker world.next [] := by
        rw [made]
        exact ⟨Function.update_self .., Function.update_self ..⟩
      refine ⟨holds.grows List.nil_prefix, fun file same => ?_⟩
      obtain rfl := Except.ok.inj same
      exact holds
    · exact absurd missing served.1
    · have unchanged : after = world := served
      subst after
      exact ⟨grows, fun file impossible => by cases impossible⟩

/-- At every moment, the marker is missing or holds what has been written of its line. In
the end it holds the whole line. -/
theorem survives_recordReplayMarker
    (digest : Bytes -> Bytes)
    (rounds : Nat)
    (directory : File)
    (response : SignedAuthResponse)
    (missing : world.entries (hexEncode (digest response.signature)) = none) :
    (recordReplayMarker digest rounds directory response).Survives MarkerDirectory.Serves
      (fun world => world.Grows (hexEncode (digest response.signature)) response.body.expiresAtMs)
      world fun result after => result = .ok () ->
        ∃ file, after.Holds (hexEncode (digest response.signature)) file
          (markerLine response.body.expiresAtMs) := by
  have grows : ∀ world : MarkerDirectory,
      world.entries (hexEncode (digest response.signature)) = none ->
        world.Grows (hexEncode (digest response.signature)) response.body.expiresAtMs :=
    fun world missing file named => absurd (missing.symm.trans named) (Option.some_ne_none file).symm
  refine ⟨grows world missing, ?_⟩
  rintro (_ | now) after served
  · exact served.elim
  have unchanged : after = world := served
  subst after
  change ((Trust.cleanupMarkers directory now rounds).mapError HelperError.io >>= _ :
    Routine HelperError Unit).Survives _ _ _ _
  have cleans : ((Trust.cleanupMarkers directory now rounds).mapError HelperError.io).Survives
      MarkerDirectory.Serves
      (fun world => world.entries (hexEncode (digest response.signature)) = none)
      world fun _ _ => True :=
    ((within_cleanupMarkers directory now rounds).mapError HelperError.io).survives
      (fun _ _ _ _ removes missing served => missing_of_removes removes missing served) missing
  have cleansGrowing := (cleans.mono fun result after gone _ => gone).mono_crash grows
  refine Survives.bind cleansGrowing ?_ fun error after _ impossible => by cases impossible
  rintro ⟨⟩ cleaned _ gone
  refine Survives.attempt_bind (survives_createMarker directory gone) ?_
  rintro (error | file) created growing made
  · cases error <;> exact ⟨growing, fun impossible => by cases impossible⟩
  · refine Survives.mapError ?_
    have whole : [] ++ (markerPieces response.body.expiresAtMs).flatMap utf8 <+:
        markerLine response.body.expiresAtMs := List.prefix_rfl
    refine (survives_writePieces _ (made file rfl) whole).mono ?_
    intro result after _ written ended
    cases result with
    | ok value => exact ⟨file, written rfl⟩
    | error error => cases ended

end Recording

theorem isHexDigit_hexDigit
    {value : UInt8}
    (small : value.toNat < 16) :
    isHexDigit (hexDigit value) = true := by
  have digits : ∀ number : Fin 16, isHexDigit (hexDigit (UInt8.ofNat number)) = true := by
    decide
  have digit := digits ⟨value.toNat, small⟩
  rwa [UInt8.ofNat_toNat] at digit

/-- The names of the markers that the helper writes. -/
theorem isMarkerName_hexEncode
    {bytes : Bytes}
    (length : bytes.length = 32) :
    IsMarkerName (hexEncode bytes) := by
  constructor
  · simp [hexEncode, List.length_flatMap, length]
  · refine List.all_eq_true.mpr fun digit member => ?_
    obtain ⟨byte, _, inPair⟩ := List.mem_flatMap.mp member
    have bound := byte.toNat_lt
    rcases List.mem_pair.mp inPair with rfl | rfl
    · refine isHexDigit_hexDigit ?_
      rw [UInt8.toNat_div]
      change byte.toNat / 16 < 16
      omega
    · refine isHexDigit_hexDigit ?_
      rw [UInt8.toNat_mod]
      exact Nat.mod_lt _ (by decide)

/-- The cleanup removes exactly the expired markers. A marker that the helper has written
expires when its time has passed, and not before its number has been written. -/
theorem cleanupMarkers_exact :
    (∀ (world : MarkerDirectory) (directory : File) (now : UInt64) (rounds : Nat),
      (∀ name, world.entries name ≠ none -> name ∈ world.listing) ->
      world.listing.length < rounds ->
        (∃ trace result after, Executes MarkerDirectory.Serves
          (Trust.cleanupMarkers directory now rounds) world trace (.done result) after) ∧
        ∀ trace rest after, Executes MarkerDirectory.Serves
            (Trust.cleanupMarkers directory now rounds) world trace rest after ->
          rest ≠ .exhausted ∧ ∀ result, rest = .done result -> result = .ok () ∧
            after.nodes = world.nodes ∧
            (∀ name, world.Expired now name -> after.entries name = none) ∧
            ∀ name, ¬world.Expired now name -> after.entries name = world.entries name) ∧
    (∀ (world : MarkerDirectory) (digest : Bytes -> Bytes) (rounds : Nat) (directory : File)
        (response : SignedAuthResponse),
      (digest response.signature).length = 32 ->
      world.entries (hexEncode (digest response.signature)) = none ->
        IsMarkerName (hexEncode (digest response.signature)) ∧
        ∀ trace rest after, Executes MarkerDirectory.Serves
            (recordReplayMarker digest rounds directory response) world trace rest after ->
          after.Grows (hexEncode (digest response.signature)) response.body.expiresAtMs ∧
          (rest = .done (.ok ()) ->
            ∃ file, after.Holds (hexEncode (digest response.signature)) file
              (markerLine response.body.expiresAtMs))) ∧
    ∀ now expiresAtMs : UInt64,
      (∀ count, 2 ≤ count ->
        (ExpiredContents now (((markerPieces expiresAtMs).take count).flatMap utf8) ↔
          expiresAtMs < now)) ∧
      (ExpiredContents now (markerLine expiresAtMs) ↔ expiresAtMs < now) ∧
      ∀ written, written <+: utf8 "expires_at_ms=" -> ¬ExpiredContents now written := by
  refine ⟨fun world directory now rounds listed enough => ?_,
    fun world digest rounds directory response length missing => ?_,
    fun now expiresAtMs => ⟨fun count => expiredContents_take_iff now expiresAtMs,
      expiredContents_take_iff now expiresAtMs (by decide : 2 ≤ 3),
      fun written => not_expiredContents_label now⟩⟩
  · have achieves : (Trust.cleanupMarkers directory now rounds).Achieves _ world _ :=
      achieves_cleanupMarkers now rounds listed enough
    exact ⟨achieves.exists_executes, fun trace rest after executes => achieves.executes executes⟩
  · refine ⟨isMarkerName_hexEncode length, fun trace rest after executes => ?_⟩
    obtain ⟨grows, ended⟩ := (survives_recordReplayMarker digest rounds directory response
      missing).executes executes
    exact ⟨grows, fun done => ended _ done rfl⟩

end Helper
end MacosAuth
